import ArosKernel.Governor
import ArosKernel.Transition

/-! Agent admission of `scheduler/admission.rs` over the allocator of
`scheduler/allocator.rs`, whose totals are 32-bit. -/
namespace ArosKernel.Scheduler
open Governor Transition

structure ResourceRequirements where
  cpuMillicores : UInt32
  memoryMb : UInt32
  deriving DecidableEq, Repr

def claudeCli : ResourceRequirements := { cpuMillicores := 500, memoryMb := 250 }

structure ResourceAllocator where
  allocatedCpu : UInt32
  allocatedMemory : UInt32
  activeAgents : UInt32
  deriving DecidableEq, Repr

namespace ResourceAllocator

def new : ResourceAllocator := ⟨0, 0, 0⟩

def allocate (a : ResourceAllocator) (req : ResourceRequirements) : ResourceAllocator :=
  { allocatedCpu := a.allocatedCpu + req.cpuMillicores, allocatedMemory := a.allocatedMemory + req.memoryMb,
    activeAgents := a.activeAgents + 1 }

end ResourceAllocator

structure AdmissionController where
  maxAgentsHardLimit : UInt32
  deriving DecidableEq, Repr

namespace AdmissionController

def canSchedule (c : AdmissionController) (req : ResourceRequirements) (allocator : ResourceAllocator)
    (pressure : MemoryPressureLevel) (availableCpuMillicores availableMemoryMb : UInt32) : Bool :=
  if pressure = .critical then false
  else if availableCpuMillicores < req.cpuMillicores then false
  else if availableMemoryMb < req.memoryMb then false
  else if c.maxAgentsHardLimit ≤ allocator.activeAgents then false
  else true

-- `u32::min` and `u32::saturating_sub`.
def lesser (a b : UInt32) : UInt32 := if a ≤ b then a else b
def saturatingSub (a b : UInt32) : UInt32 := if b ≤ a then a - b else 0

def slotsOf (available need : UInt32) : UInt32 := if 0 < need then available / need else 0xFFFFFFFF

def availableSlots (c : AdmissionController) (req : ResourceRequirements) (allocator : ResourceAllocator)
    (pressure : MemoryPressureLevel) (availableCpuMillicores availableMemoryMb : UInt32) : UInt32 :=
  if pressure = .critical then 0
  else
    let agentHeadroom := saturatingSub c.maxAgentsHardLimit allocator.activeAgents
    let cpuSlots := slotsOf availableCpuMillicores req.cpuMillicores
    let memSlots := slotsOf availableMemoryMb req.memoryMb
    lesser (lesser agentHeadroom cpuSlots) memSlots

end AdmissionController

structure Machine where
  allocator : ResourceAllocator
  availableCpu : UInt32
  availableMemory : UInt32
  deriving DecidableEq, Repr

namespace Machine

def schedule (c : AdmissionController) (req : ResourceRequirements) (pressure : MemoryPressureLevel) (s : Machine)
    (_ : Unit) : Option Machine :=
  if c.canSchedule req s.allocator pressure s.availableCpu s.availableMemory then
    some ⟨s.allocator.allocate req, s.availableCpu - req.cpuMillicores, s.availableMemory - req.memoryMb⟩
  else none

def canSchedule (c : AdmissionController) (req : ResourceRequirements) (pressure : MemoryPressureLevel) (s : Machine) : Bool :=
  c.canSchedule req s.allocator pressure s.availableCpu s.availableMemory

def slots (c : AdmissionController) (req : ResourceRequirements) (pressure : MemoryPressureLevel) (s : Machine) : UInt32 :=
  c.availableSlots req s.allocator pressure s.availableCpu s.availableMemory

structure Fits (s : Machine) : Prop where
  cpu : s.allocator.allocatedCpu.toNat + s.availableCpu.toNat < 2 ^ 32
  memory : s.allocator.allocatedMemory.toNat + s.availableMemory.toNat < 2 ^ 32

structure Rounds (req : ResourceRequirements) (s : Machine) (n : Nat) (t : Machine) : Prop where
  cpu : t.allocator.allocatedCpu.toNat = s.allocator.allocatedCpu.toNat + n * req.cpuMillicores.toNat
  memory : t.allocator.allocatedMemory.toNat = s.allocator.allocatedMemory.toNat + n * req.memoryMb.toNat
  agents : t.allocator.activeAgents.toNat = s.allocator.activeAgents.toNat + n
  leftCpu : t.availableCpu.toNat + n * req.cpuMillicores.toNat = s.availableCpu.toNat
  leftMemory : t.availableMemory.toNat + n * req.memoryMb.toNat = s.availableMemory.toNat

variable {c : AdmissionController} {req : ResourceRequirements} {pressure : MemoryPressureLevel}

theorem canScheduleIff {s : Machine} : s.canSchedule c req pressure = true ↔ pressure ≠ .critical ∧
    req.cpuMillicores.toNat ≤ s.availableCpu.toNat ∧ req.memoryMb.toNat ≤ s.availableMemory.toNat ∧
    s.allocator.activeAgents.toNat < c.maxAgentsHardLimit.toNat := by
  unfold canSchedule AdmissionController.canSchedule
  constructor
  · intro passes
    split at passes <;> [contradiction; rename_i calm]
    split at passes <;> [contradiction; rename_i cpu]
    split at passes <;> [contradiction; rename_i memory]
    split at passes <;> [contradiction; rename_i room]
    exact ⟨calm, UInt32.le_iff_toNat_le.mp (UInt32.not_lt.mp cpu), UInt32.le_iff_toNat_le.mp (UInt32.not_lt.mp memory),
      UInt32.lt_iff_toNat_lt.mp (UInt32.not_le.mp room)⟩
  · intro ⟨calm, cpu, memory, room⟩
    rw [if_neg calm, if_neg (UInt32.not_lt.mpr (UInt32.le_iff_toNat_le.mpr cpu)),
      if_neg (UInt32.not_lt.mpr (UInt32.le_iff_toNat_le.mpr memory)),
      if_neg (UInt32.not_le.mpr (UInt32.lt_iff_toNat_lt.mpr room))]

-- How often an amount holds a need; a need of nothing is held as often as 32 bits count.
def holds (available need : Nat) : Nat := if 0 < need then available / need else 2 ^ 32 - 1

theorem lesserNat (a b : UInt32) : (AdmissionController.lesser a b).toNat = min a.toNat b.toNat := by
  unfold AdmissionController.lesser
  split
  · rename_i le
    exact (min_eq_left (UInt32.le_iff_toNat_le.mp le)).symm
  · rename_i gt
    exact (min_eq_right (Nat.le_of_lt (UInt32.lt_iff_toNat_lt.mp (UInt32.not_le.mp gt)))).symm

theorem slotsOfNat (available need : UInt32) :
    (AdmissionController.slotsOf available need).toNat = holds available.toNat need.toNat := by
  unfold AdmissionController.slotsOf holds
  have positive : 0 < need ↔ 0 < need.toNat := UInt32.lt_iff_toNat_lt
  by_cases some_ : 0 < need
  · rw [if_pos some_, if_pos (positive.mp some_), UInt32.toNat_div]
  · rw [if_neg some_, if_neg (fun more => some_ (positive.mpr more))]
    rfl

theorem saturatingSubNat (a b : UInt32) : (AdmissionController.saturatingSub a b).toNat = a.toNat - b.toNat := by
  unfold AdmissionController.saturatingSub
  split
  · rename_i le
    exact UInt32.toNat_sub_of_le _ _ le
  · rename_i gt
    have := UInt32.lt_iff_toNat_lt.mp (UInt32.not_le.mp gt)
    rw [UInt32.toNat_zero]
    omega

theorem slotsNat (s : Machine) : (s.slots c req pressure).toNat =
    if pressure = .critical then 0
    else min (min (c.maxAgentsHardLimit.toNat - s.allocator.activeAgents.toNat)
      (holds s.availableCpu.toNat req.cpuMillicores.toNat)) (holds s.availableMemory.toNat req.memoryMb.toNat) := by
  unfold slots AdmissionController.availableSlots
  split
  · rfl
  · rw [lesserNat, lesserNat, saturatingSubNat, slotsOfNat, slotsOfNat]

theorem holdsPositive {available need : Nat} : 0 < holds available need ↔ need ≤ available := by
  unfold holds
  split
  · rename_i positive
    exact Nat.div_pos_iff.trans (and_iff_right positive)
  · exact iff_of_true (by decide) (by omega)

theorem holdsLess {available need : Nat} (le : need ≤ available) : holds (available - need) need + 1 = holds available need ∨
    (holds (available - need) need = 2 ^ 32 - 1 ∧ holds available need = 2 ^ 32 - 1) := by
  unfold holds
  split
  · rename_i positive
    refine .inl ?_
    rw [Nat.div_eq_sub_div positive le]
  · exact .inr ⟨rfl, rfl⟩

theorem slotsPositive {s : Machine} : 0 < (s.slots c req pressure).toNat ↔ s.canSchedule c req pressure = true := by
  rw [slotsNat, canScheduleIff]
  split
  · rename_i critical
    exact iff_of_false (Nat.lt_irrefl 0) (fun passes => passes.1 critical)
  · rename_i calm
    rw [Nat.lt_min, Nat.lt_min, holdsPositive, holdsPositive]
    constructor
    · intro ⟨⟨room, cpu⟩, memory⟩
      exact ⟨calm, cpu, memory, by omega⟩
    · intro ⟨_, cpu, memory, room⟩
      exact ⟨⟨by omega, cpu⟩, memory⟩

theorem scheduleStep {s : Machine} (fits : s.Fits) (passes : s.canSchedule c req pressure = true) :
    ∃ t, s.schedule c req pressure () = some t ∧ t.Fits ∧ Rounds req s 1 t ∧
      (t.slots c req pressure).toNat + 1 = (s.slots c req pressure).toNat := by
  obtain ⟨calm, cpu, memory, room⟩ := canScheduleIff.mp passes
  have cpuFits := fits.cpu
  have memoryFits := fits.memory
  have limit := c.maxAgentsHardLimit.toNat_lt
  refine ⟨_, if_pos passes, ?_⟩
  have leftCpu : (s.availableCpu - req.cpuMillicores).toNat = s.availableCpu.toNat - req.cpuMillicores.toNat :=
    UInt32.toNat_sub_of_le _ _ (UInt32.le_iff_toNat_le.mpr cpu)
  have leftMemory : (s.availableMemory - req.memoryMb).toNat = s.availableMemory.toNat - req.memoryMb.toNat :=
    UInt32.toNat_sub_of_le _ _ (UInt32.le_iff_toNat_le.mpr memory)
  have takenCpu : (s.allocator.allocatedCpu + req.cpuMillicores).toNat =
      s.allocator.allocatedCpu.toNat + req.cpuMillicores.toNat :=
    (UInt32.toNat_add ..).trans (Nat.mod_eq_of_lt (by omega))
  have takenMemory : (s.allocator.allocatedMemory + req.memoryMb).toNat =
      s.allocator.allocatedMemory.toNat + req.memoryMb.toNat :=
    (UInt32.toNat_add ..).trans (Nat.mod_eq_of_lt (by omega))
  have agents : (s.allocator.activeAgents + 1).toNat = s.allocator.activeAgents.toNat + 1 :=
    (UInt32.toNat_add ..).trans (Nat.mod_eq_of_lt (by rw [UInt32.toNat_one]; omega))
  refine ⟨⟨?_, ?_⟩, ⟨?_, ?_, agents, ?_, ?_⟩, ?_⟩
  · rw [ResourceAllocator.allocate, takenCpu, leftCpu]
    omega
  · rw [ResourceAllocator.allocate, takenMemory, leftMemory]
    omega
  · rw [ResourceAllocator.allocate, takenCpu, Nat.one_mul]
  · rw [ResourceAllocator.allocate, takenMemory, Nat.one_mul]
  · rw [leftCpu, Nat.one_mul, Nat.sub_add_cancel cpu]
  · rw [leftMemory, Nat.one_mul, Nat.sub_add_cancel memory]
  · have fewerCpu := holdsLess cpu
    have fewerMemory := holdsLess memory
    rw [slotsNat, slotsNat, if_neg calm, if_neg calm, leftCpu, leftMemory, ResourceAllocator.allocate, agents]
    have someCpu := holdsPositive.mpr cpu
    have someMemory := holdsPositive.mpr memory
    omega

theorem Rounds.next {s t u : Machine} {n : Nat} (first : Rounds req s 1 t) (rest : Rounds req t n u) :
    Rounds req s (n + 1) u := by
  obtain ⟨cpu, memory, agents, leftCpu, leftMemory⟩ := first
  obtain ⟨cpu', memory', agents', leftCpu', leftMemory'⟩ := rest
  rw [Nat.one_mul] at cpu memory leftCpu leftMemory
  exact ⟨by rw [Nat.succ_mul]; omega, by rw [Nat.succ_mul]; omega, by omega, by rw [Nat.succ_mul]; omega,
    by rw [Nat.succ_mul]; omega⟩

theorem scheduleRuns (n : Nat) {s : Machine} (fits : s.Fits) (exactly : (s.slots c req pressure).toNat = n) :
    ∃ t, run (schedule c req pressure) s (List.replicate n ()) = some t ∧ t.canSchedule c req pressure = false ∧
      Rounds req s n t := by
  induction n generalizing s with
  | zero =>
    refine ⟨s, rfl, ?_, ⟨by simp, by simp, by simp, by simp, by simp⟩⟩
    rw [← Bool.not_eq_true, ← slotsPositive, exactly]
    exact Nat.lt_irrefl 0
  | succ n ih =>
    have some_ : 0 < (s.slots c req pressure).toNat := by rw [exactly]; exact Nat.succ_pos n
    obtain ⟨t, next, fits', first, fewer⟩ := scheduleStep fits (slotsPositive.mp some_)
    obtain ⟨u, ran, full, rest⟩ := ih fits' (by omega)
    exact ⟨u, runCons.mpr ⟨t, next, ran⟩, full, first.next rest⟩

theorem availableSlotsExact (c : AdmissionController) (req : ResourceRequirements) (pressure : MemoryPressureLevel)
    {s : Machine} (fits : s.Fits) :
    ∃ t, run (schedule c req pressure) s (List.replicate (s.slots c req pressure).toNat ()) = some t ∧
      t.canSchedule c req pressure = false ∧ Rounds req s (s.slots c req pressure).toNat t :=
  scheduleRuns _ fits rfl

def idle : Machine := ⟨.new, 2000, 800⟩

theorem availableSlotsExactIdle :
    ∃ t, run (schedule ⟨5⟩ claudeCli .normal) idle (List.replicate (idle.slots ⟨5⟩ claudeCli .normal).toNat ()) = some t ∧
      t.canSchedule ⟨5⟩ claudeCli .normal = false ∧ Rounds claudeCli idle (idle.slots ⟨5⟩ claudeCli .normal).toNat t :=
  availableSlotsExact ⟨5⟩ claudeCli .normal ⟨by decide, by decide⟩

end Machine
end ArosKernel.Scheduler
