import Mathlib.Data.List.Infix

/-! The `LIKE` operator of SQL without `ESCAPE`: `%` stands for any text, `_` for any
one character, and ASCII letters match in either case. -/
namespace ArosKernel.LikePattern

def charLike (p c : Char) : Bool := p == '_' || p.toLower == c.toLower

def like : List Char → List Char → Bool
  | [], text => text.isEmpty
  | p :: pattern, text =>
    if p = '%' then text.tails.any (like pattern)
    else match text with
      | [] => false
      | c :: rest => charLike p c && like pattern rest

inductive Resembles : List Char → List Char → Prop
  | nil : Resembles [] []
  | text {pattern rest : List Char} (any : List Char) (tail : Resembles pattern rest) :
      Resembles ('%' :: pattern) (any ++ rest)
  | one {pattern rest : List Char} (c : Char) (tail : Resembles pattern rest) : Resembles ('_' :: pattern) (c :: rest)
  | letter {pattern rest : List Char} {p c : Char} (same : p.toLower = c.toLower) (tail : Resembles pattern rest) :
      Resembles (p :: pattern) (c :: rest)

theorem likePercent {pattern text : List Char} :
    like ('%' :: pattern) text = true ↔ ∃ any rest, text = any ++ rest ∧ like pattern rest = true := by
  show text.tails.any (like pattern) = true ↔ _
  rw [List.any_eq_true]
  constructor
  · intro ⟨rest, suffix, matched⟩
    obtain ⟨any, same⟩ := (List.mem_tails ..).mp suffix
    exact ⟨any, rest, same.symm, matched⟩
  · intro ⟨any, rest, same, matched⟩
    exact ⟨rest, (List.mem_tails ..).mpr ⟨any, same.symm⟩, matched⟩

theorem likeCons {p c : Char} {pattern rest : List Char} (plain : p ≠ '%') :
    like (p :: pattern) (c :: rest) = true ↔ (p = '_' ∨ p.toLower = c.toLower) ∧ like pattern rest = true := by
  rw [like, if_neg plain]
  simp [charLike]

theorem likeIff {pattern text : List Char} : like pattern text = true ↔ Resembles pattern text := by
  constructor
  · intro matched
    induction pattern generalizing text with
    | nil =>
      cases List.isEmpty_iff.mp matched
      exact .nil
    | cons p pattern ih =>
      by_cases wild : p = '%'
      · subst wild
        obtain ⟨any, rest, same, matched⟩ := likePercent.mp matched
        exact same ▸ .text any (ih matched)
      · cases text with
        | nil => simp [like, wild] at matched
        | cons c rest =>
          obtain ⟨one | same, matched⟩ := (likeCons wild).mp matched
          · exact one ▸ .one c (ih matched)
          · exact .letter same (ih matched)
  · intro read
    induction read with
    | nil => rfl
    | text any _ ih => exact likePercent.mpr ⟨any, _, rfl, ih⟩
    | one c _ ih => exact (likeCons (by decide)).mpr ⟨.inl rfl, ih⟩
    | @letter pattern rest p c same _ ih =>
      by_cases wild : p = '%'
      · exact wild ▸ likePercent.mpr ⟨[c], rest, rfl, ih⟩
      · exact (likeCons wild).mpr ⟨.inr same, ih⟩

theorem resemblesSelf (pattern : List Char) : Resembles pattern pattern := by
  induction pattern with
  | nil => exact .nil
  | cons p pattern ih => exact .letter rfl ih

theorem resemblesAppend {first second text : List Char} :
    Resembles (first ++ second) text ↔ ∃ front back, text = front ++ back ∧ Resembles first front ∧ Resembles second back := by
  constructor
  · intro read
    induction first generalizing text with
    | nil => exact ⟨[], text, rfl, .nil, read⟩
    | cons p first ih =>
      cases read with
      | text any tail =>
        obtain ⟨front, back, same, left, right⟩ := ih tail
        exact ⟨any ++ front, back, by rw [same, List.append_assoc], .text any left, right⟩
      | one c tail =>
        obtain ⟨front, back, same, left, right⟩ := ih tail
        exact ⟨c :: front, back, by rw [same, List.cons_append], .one c left, right⟩
      | @letter _ _ _ c lower tail =>
        obtain ⟨front, back, same, left, right⟩ := ih tail
        exact ⟨c :: front, back, by rw [same, List.cons_append], .letter lower left, right⟩
  · intro ⟨front, back, same, left, right⟩
    subst same
    induction left with
    | nil => exact right
    | text any _ ih => exact List.append_assoc any _ _ ▸ .text any ih
    | one c _ ih => exact .one c ih
    | letter lower _ ih => exact .letter lower ih

theorem likeStarts {pattern text : List Char} :
    like (pattern ++ ['%']) text = true ↔ ∃ front, front <+: text ∧ Resembles pattern front := by
  rw [likeIff, resemblesAppend]
  constructor
  · intro ⟨front, back, same, left, _⟩
    exact ⟨front, ⟨back, same.symm⟩, left⟩
  · intro ⟨front, ⟨back, same⟩, left⟩
    have rest : Resembles ['%'] back := List.append_nil back ▸ .text back .nil
    exact ⟨front, back, same.symm, left, rest⟩

end ArosKernel.LikePattern
