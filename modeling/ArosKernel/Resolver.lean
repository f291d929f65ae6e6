import ArosKernel.Choice
import ArosKernel.ProviderRegistry

/-! Provider resolution of `adapter/resolver.rs`: four filters over the configured
providers, then a stable sort by fallback rank. -/
namespace ArosKernel.Adapter
open Choice
open Envelope (SecurityZone)

-- The `{:?}` of a tier.
def QualityTier.text : QualityTier → String
  | .haiku => "Haiku"
  | .sonnet => "Sonnet"
  | .opus => "Opus"

def QualityTier.ordinal : QualityTier → Nat
  | .haiku => 0
  | .sonnet => 1
  | .opus => 2

inductive DegradationLevel where
  | none
  | mild
  | significant
  deriving DecidableEq, Repr

inductive AdapterError where
  | noProviderAvailable (zone : SecurityZone) (reason : String)
  deriving DecidableEq, Repr

def AdapterError.text : AdapterError → String
  | .noProviderAvailable zone _ => s!"no provider available for zone {zone.text} with requested capabilities"

structure CapabilityReq where
  minContext : UInt64
  supportsStreaming : Bool
  toolUse : Bool
  vision : Bool
  minQualityTier : QualityTier
  deriving DecidableEq, Repr

def CapabilityReq.default : CapabilityReq :=
  { minContext := 8000, supportsStreaming := false, toolUse := false, vision := false, minQualityTier := .haiku }

structure AdapterRequest where
  capabilities : CapabilityReq
  securityZone : SecurityZone
  requireDifferentProvider : Bool
  deriving DecidableEq, Repr

structure ResolvedProvider where
  config : ProviderConfig
  degradationLevel : DegradationLevel
  deriving DecidableEq, Repr

def zoneAllows (zone : SecurityZone) (allowlist : List SecurityZone) : Bool := allowlist.contains zone

def meetsCapabilities (req : CapabilityReq) (provider : ProviderConfig) : Bool :=
  let caps := provider.capabilities
  if caps.maxContext < req.minContext then false
  else if req.supportsStreaming && !caps.streaming then false
  else if req.toolUse && !caps.toolUse then false
  else if req.vision && !caps.vision then false
  else if caps.maxQualityTier.ordinal < req.minQualityTier.ordinal then false
  else true

def adversarial (req : AdapterRequest) (lastProviderId : Option String) (p : ProviderConfig) : Bool :=
  if req.requireDifferentProvider then
    match lastProviderId with
    | none => true
    | some last => last != p.id
  else true

def degradation (p : ProviderConfig) : DegradationLevel :=
  if p.fallbackRank ≤ 1 then .none
  else if p.fallbackRank = 2 then .mild
  else .significant

def unmet (req : AdapterRequest) : AdapterError :=
  .noProviderAvailable req.securityZone
    s!"No provider meets requirements: zone={req.securityZone.text}, min_quality={req.capabilities.minQualityTier.text}, tool_use={req.capabilities.toolUse}, vision={req.capabilities.vision}"

def resolve (req : AdapterRequest) (providers : List ProviderConfig) (availableIds : List String)
    (lastProviderId : Option String) : Except AdapterError ResolvedProvider :=
  let candidates := ((((providers.filter (fun p => zoneAllows req.securityZone p.zoneAllowlist)).filter
    (fun p => meetsCapabilities req.capabilities p)).filter
    (fun p => availableIds.contains p.id)).filter
    (fun p => adversarial req lastProviderId p)).map (fun p => (p, degradation p))
  match (sortByKey (fun c => c.1.fallbackRank.toNat) candidates).head? with
  | some (p, d) => .ok ⟨p, d⟩
  | none => .error (unmet req)

structure Capable (req : CapabilityReq) (caps : ProviderCapabilities) : Prop where
  context : req.minContext ≤ caps.maxContext
  streaming : req.supportsStreaming = true → caps.streaming = true
  toolUse : req.toolUse = true → caps.toolUse = true
  vision : req.vision = true → caps.vision = true
  quality : req.minQualityTier.ordinal ≤ caps.maxQualityTier.ordinal

structure Eligible (req : AdapterRequest) (availableIds : List String) (lastProviderId : Option String)
    (p : ProviderConfig) : Prop where
  zone : req.securityZone ∈ p.zoneAllowlist
  capable : Capable req.capabilities p.capabilities
  available : p.id ∈ availableIds
  different : req.requireDifferentProvider = true → lastProviderId ≠ some p.id

theorem checkPasses {bad : Prop} [Decidable bad] {rest : Bool} :
    (if bad then false else rest) = true ↔ ¬ bad ∧ rest = true := by
  by_cases fails : bad
  · simp [fails]
  · simp [fails]

theorem meetsCapabilitiesIff {req : CapabilityReq} {p : ProviderConfig} :
    meetsCapabilities req p = true ↔ Capable req p.capabilities := by
  simp only [meetsCapabilities, checkPasses, Bool.and_eq_true, Bool.not_eq_true', not_and, Bool.not_eq_false,
    UInt64.not_lt, Nat.not_lt, and_true]
  constructor
  · intro ⟨context, streaming, toolUse, vision, quality⟩
    exact ⟨context, streaming, toolUse, vision, quality⟩
  · intro ⟨context, streaming, toolUse, vision, quality⟩
    exact ⟨context, streaming, toolUse, vision, quality⟩

theorem adversarialIff {req : AdapterRequest} {lastProviderId : Option String} {p : ProviderConfig} :
    adversarial req lastProviderId p = true ↔ (req.requireDifferentProvider = true → lastProviderId ≠ some p.id) := by
  unfold adversarial
  cases req.requireDifferentProvider with
  | false => simp
  | true =>
    cases lastProviderId with
    | none => simp
    | some last => simp

def eligible (req : AdapterRequest) (availableIds : List String) (lastProviderId : Option String) (p : ProviderConfig) :
    Bool :=
  adversarial req lastProviderId p && (availableIds.contains p.id &&
    (meetsCapabilities req.capabilities p && zoneAllows req.securityZone p.zoneAllowlist))

theorem eligibleIff {req : AdapterRequest} {availableIds : List String} {lastProviderId : Option String}
    {p : ProviderConfig} :
    eligible req availableIds lastProviderId p = true ↔ Eligible req availableIds lastProviderId p := by
  simp only [eligible, Bool.and_eq_true, adversarialIff, meetsCapabilitiesIff, zoneAllows, List.contains_iff_mem]
  constructor
  · intro ⟨different, available, capable, zone⟩
    exact ⟨zone, capable, available, different⟩
  · intro ⟨zone, capable, available, different⟩
    exact ⟨different, available, capable, zone⟩

def ranked (p : ProviderConfig) : ProviderConfig × DegradationLevel := (p, degradation p)

theorem resolveEq (req : AdapterRequest) (providers : List ProviderConfig) (availableIds : List String)
    (lastProviderId : Option String) : resolve req providers availableIds lastProviderId =
      match (sortByKey (fun c => c.1.fallbackRank.toNat)
        ((providers.filter (eligible req availableIds lastProviderId)).map ranked)).head? with
      | some (p, d) => .ok ⟨p, d⟩
      | none => .error (unmet req) := by
  simp only [resolve, List.filter_filter]
  rfl

theorem resolveError {req : AdapterRequest} {providers : List ProviderConfig} {availableIds : List String}
    {lastProviderId : Option String} (none_ : ∀ p ∈ providers, ¬ Eligible req availableIds lastProviderId p) :
    resolve req providers availableIds lastProviderId = .error (unmet req) := by
  have nothing : providers.filter (eligible req availableIds lastProviderId) = [] :=
    List.filter_eq_nil_iff.mpr (fun p member passes => none_ p member (eligibleIff.mp passes))
  simp [resolveEq, nothing, sortByKey]

structure Chosen (req : AdapterRequest) (providers : List ProviderConfig) (availableIds : List String)
    (lastProviderId : Option String) (r : ResolvedProvider) (before after : List ProviderConfig) : Prop where
  split : providers = before ++ r.config :: after
  eligible : Eligible req availableIds lastProviderId r.config
  less : ∀ q ∈ before, Eligible req availableIds lastProviderId q → r.config.fallbackRank < q.fallbackRank
  least : ∀ q ∈ after, Eligible req availableIds lastProviderId q → r.config.fallbackRank ≤ q.fallbackRank
  degraded : r.degradationLevel = degradation r.config

theorem resolveChosen {req : AdapterRequest} {providers : List ProviderConfig} {availableIds : List String}
    {lastProviderId : Option String} {r : ResolvedProvider}
    (ok : resolve req providers availableIds lastProviderId = .ok r) :
    ∃ before after, Chosen req providers availableIds lastProviderId r before after := by
  rw [resolveEq] at ok
  split at ok
  · rename_i p d head
    cases ok
    obtain ⟨_, _, first⟩ := headFirstLeast head
    obtain ⟨q, _, _, here, unranked⟩ := firstLeastMap first
    cases here
    obtain ⟨passes, before, after, split, less, least⟩ := firstLeastFilter unranked
    refine ⟨before, after, split, eligibleIff.mp passes, fun q member other => ?_, fun q member other => ?_, rfl⟩
    · exact UInt32.lt_iff_toNat_lt.mpr (less q member (eligibleIff.mpr other))
    · exact UInt32.le_iff_toNat_le.mpr (least q member (eligibleIff.mpr other))
  · contradiction

theorem resolveOkIff {req : AdapterRequest} {providers : List ProviderConfig} {availableIds : List String}
    {lastProviderId : Option String} : (∃ r, resolve req providers availableIds lastProviderId = .ok r) ↔
      ∃ p ∈ providers, Eligible req availableIds lastProviderId p := by
  constructor
  · intro ⟨r, ok⟩
    obtain ⟨before, after, chosen⟩ := resolveChosen ok
    exact ⟨r.config, by rw [chosen.split]; exact List.mem_append_right _ List.mem_cons_self, chosen.eligible⟩
  · intro ⟨p, member, passes⟩
    have listed : ranked p ∈ (providers.filter (eligible req availableIds lastProviderId)).map ranked :=
      List.mem_map_of_mem (List.mem_filter.mpr ⟨member, eligibleIff.mpr passes⟩)
    rw [resolveEq]
    split
    · exact ⟨_, rfl⟩
    · rename_i empty
      rw [List.head?_eq_none_iff] at empty
      rw [← memSortByKey (fun c : ProviderConfig × DegradationLevel => c.1.fallbackRank.toNat), empty] at listed
      contradiction

theorem Eligible.mono {req : AdapterRequest} {availableIds more : List String} {lastProviderId : Option String}
    {p : ProviderConfig} (eligible : Eligible req availableIds lastProviderId p)
    (further : ∀ id ∈ availableIds, id ∈ more) : Eligible req more lastProviderId p :=
  ⟨eligible.zone, eligible.capable, further p.id eligible.available, eligible.different⟩

theorem resolveLeast (req : AdapterRequest) (providers : List ProviderConfig) (availableIds : List String)
    (lastProviderId : Option String) :
    ((∃ r, resolve req providers availableIds lastProviderId = .ok r) ↔
      ∃ p ∈ providers, Eligible req availableIds lastProviderId p) ∧
    (∀ r, resolve req providers availableIds lastProviderId = .ok r →
      ∃ before after, Chosen req providers availableIds lastProviderId r before after) ∧
    (∀ reordered : List String, (∀ id, id ∈ reordered ↔ id ∈ availableIds) →
      resolve req providers reordered lastProviderId = resolve req providers availableIds lastProviderId) ∧
    (∀ more : List String, (∀ id ∈ availableIds, id ∈ more) →
      ∀ r, resolve req providers availableIds lastProviderId = .ok r →
        ∃ r', resolve req providers more lastProviderId = .ok r' ∧ r'.config.fallbackRank ≤ r.config.fallbackRank) := by
  refine ⟨resolveOkIff, fun r ok => resolveChosen ok, fun reordered same => ?_, fun more further r ok => ?_⟩
  · have alike : eligible req reordered lastProviderId = eligible req availableIds lastProviderId := by
      funext p
      simp only [eligible, List.contains_eq_mem, same p.id]
    rw [resolveEq, resolveEq, alike]
  · obtain ⟨before, after, chosen⟩ := resolveChosen ok
    have member : r.config ∈ providers := by
      rw [chosen.split]
      exact List.mem_append_right _ List.mem_cons_self
    have again := chosen.eligible.mono further
    obtain ⟨r', ok'⟩ := resolveOkIff.mpr ⟨r.config, member, again⟩
    obtain ⟨before', after', chosen'⟩ := resolveChosen ok'
    refine ⟨r', ok', ?_⟩
    rw [chosen'.split] at member
    rcases List.mem_append.mp member with early | late
    · exact UInt32.le_of_lt (chosen'.less r.config early again)
    · rcases List.mem_cons.mp late with here | after
      · rw [here]
        exact UInt32.le_refl _
      · exact chosen'.least r.config after again

end ArosKernel.Adapter
