import HomelabApps.Library.Doubles

universe u

namespace HomelabApps.MiotDevice

open HomelabApps.Library
open HomelabApps.Library.Rounding (rounded rounded_mono rounded_nonneg)

structure Moment (K : Type u) where
  performance : K
  date : K
  deriving DecidableEq, Repr

structure StampState (K : Type u) where
  stamp : Int
  updatedAt : K
  deriving DecidableEq, Repr

structure ClockReading (K : Type u) where
  stamp : Int
  arrivedAt : K
  updatedAt : K
  deriving DecidableEq, Repr

structure DeviceClock (K : Type u) where
  reading : Option (ClockReading K) := none
  deriving DecidableEq, Repr

def MS_PER_SECOND : Nat := 1000

def DeviceClock.synced {K : Type u} (clock : DeviceClock K) : Bool := clock.reading.isSome

def DeviceClock.reset {K : Type u} (_ : DeviceClock K) : DeviceClock K := ⟨none⟩

def DeviceClock.snapshot {K : Type u} (clock : DeviceClock K) : Option (StampState K) :=
  clock.reading.map fun reading => ⟨reading.stamp, reading.updatedAt⟩

def DeviceClock.sync {K : Type u} (_ : DeviceClock K) (m : Moment K) (stamp : Int) :
    DeviceClock K :=
  ⟨some ⟨stamp, m.performance, m.date⟩⟩

@[simp] theorem DeviceClock.synced_sync {K : Type u} (clock : DeviceClock K) (m : Moment K)
    (stamp : Int) : (clock.sync m stamp).synced = true := rfl

@[simp] theorem DeviceClock.synced_reset {K : Type u} (clock : DeviceClock K) :
    clock.reset.synced = false := rfl

variable {K : Type u} [Field K] [LinearOrder K] [Rounding K]

def DeviceClock.restore (clock : DeviceClock K) (m : Moment K) (state : StampState K) :
    DeviceClock K :=
  if state.updatedAt ≤ 0 then clock
  else
    let age := max 0 (rounded (m.date - state.updatedAt))
    ⟨some ⟨state.stamp, rounded (m.performance - age), state.updatedAt⟩⟩

theorem DeviceClock.synced_restore (clock : DeviceClock K) (m : Moment K) (state : StampState K) :
    (clock.restore m state).synced = (clock.synced || decide (0 < state.updatedAt)) := by
  unfold DeviceClock.restore
  split
  · rename_i h
    simp [h.not_gt]
  · rename_i h
    simp [DeviceClock.synced, not_le.mp h]

variable [FloorRing K]

def wholeSeconds (elapsed : K) : Int := ⌊rounded (max 0 (rounded elapsed) / (MS_PER_SECOND : K))⌋

def ClockReading.next (reading : ClockReading K) (now : K) : Int :=
  reading.stamp + wholeSeconds (now - reading.arrivedAt) + 1

def DeviceClock.next (clock : DeviceClock K) (now : K) : Option Int :=
  clock.reading.map (·.next now)

def DeviceClock.observe (clock : DeviceClock K) (m : Moment K) (stamp : Int) : DeviceClock K :=
  match clock.next m.performance with
  | none => clock
  | some next => if next < stamp then clock.sync m stamp else clock

theorem DeviceClock.observe_cases (clock : DeviceClock K) (m : Moment K) (stamp : Int) :
    clock.observe m stamp = clock ∨
      clock.observe m stamp = clock.sync m stamp ∧
        ∃ reading, clock.reading = some reading ∧ reading.next m.performance < stamp := by
  unfold DeviceClock.observe
  split
  · exact .inl rfl
  · rename_i next hnext
    obtain ⟨reading, hreading, rfl⟩ := Option.map_eq_some_iff.mp hnext
    split
    · rename_i hlt
      exact .inr ⟨rfl, reading, hreading, hlt⟩
    · exact .inl rfl

@[simp] theorem DeviceClock.synced_observe (clock : DeviceClock K) (m : Moment K) (stamp : Int) :
    (clock.observe m stamp).synced = clock.synced := by
  rcases clock.observe_cases m stamp with hsame | ⟨hsync, reading, hreading, -⟩
  · rw [hsame]
  · rw [hsync, DeviceClock.synced_sync, DeviceClock.synced, hreading, Option.isSome_some]

/-- What the rounding is exact for, in milliseconds: some 140 000 years. -/
def LATEST : Nat := 2 ^ 52

variable [IsStrictOrderedRing K] [Rounding.Faithful K] {elapsed : K}

theorem wholeSeconds_mono {later : K} (h : elapsed ≤ later) : wholeSeconds elapsed ≤ wholeSeconds later := by
  have hround := rounded_mono h
  refine Int.floor_mono (rounded_mono ?_)
  gcongr

theorem wholeSeconds_nonneg (elapsed : K) : 0 ≤ wholeSeconds elapsed := by
  have hmax : 0 ≤ max 0 (rounded elapsed) := le_max_left 0 _
  exact Int.floor_nonneg.mpr (rounded_nonneg (div_nonneg hmax (Nat.cast_nonneg _)))

theorem wholeSeconds_between (hnonneg : 0 ≤ elapsed) (hlate : elapsed ≤ LATEST) :
    ⌊elapsed / (MS_PER_SECOND : K)⌋ ≤ wholeSeconds elapsed ∧
      wholeSeconds elapsed ≤ ⌊elapsed / (MS_PER_SECOND : K)⌋ + 1 := by
  have hthousand : (0 : K) < (MS_PER_SECOND : K) := by simp [MS_PER_SECOND]
  generalize hseconds : ⌊elapsed / (MS_PER_SECOND : K)⌋ = seconds
  obtain ⟨hbelow, habove⟩ := Int.floor_eq_iff.mp hseconds
  rw [le_div_iff₀ hthousand] at hbelow
  rw [div_lt_iff₀ hthousand] at habove
  have hseconds_nonneg : 0 ≤ seconds := hseconds ▸ Int.floor_nonneg.mpr (div_nonneg hnonneg hthousand.le)
  have hfew : seconds * MS_PER_SECOND ≤ LATEST := by
    have hle := hbelow.trans hlate
    exact_mod_cast hle
  have hexact : ∀ n : Int, 0 ≤ n → n ≤ seconds + 1 → rounded (n : K) = n ∧
      rounded (((n * MS_PER_SECOND : Int) : K)) = ((n * MS_PER_SECOND : Int) : K) := by
    intro n hn hle
    simp only [MS_PER_SECOND, LATEST] at hfew ⊢
    constructor <;> apply Rounding.Faithful.intCast <;> rw [abs_of_nonneg (by omega)] <;> omega
  obtain ⟨hlow, hlow'⟩ := hexact seconds hseconds_nonneg (by omega)
  obtain ⟨hhigh, hhigh'⟩ := hexact (seconds + 1) (by omega) le_rfl
  have hstart : ((seconds * MS_PER_SECOND : Int) : K) ≤ rounded elapsed := by
    rw [← hlow']
    exact rounded_mono (by push_cast; exact hbelow)
  have hend : rounded elapsed ≤ (((seconds + 1) * MS_PER_SECOND : Int) : K) := by
    rw [← hhigh']
    exact rounded_mono (by push_cast; exact habove.le)
  rw [wholeSeconds, max_eq_right (rounded_nonneg hnonneg)]
  constructor
  · rw [Int.le_floor, ← hlow]
    refine rounded_mono ((le_div_iff₀ hthousand).mpr ?_)
    exact_mod_cast hstart
  · rw [← Int.floor_intCast (seconds + 1) (R := K), ← hhigh]
    refine Int.floor_mono (rounded_mono ((div_le_iff₀ hthousand).mpr ?_))
    exact_mod_cast hend

theorem wholeSeconds_add_le {more : K} (hmore : 0 ≤ more) (hlate : more ≤ LATEST)
    (hsum : elapsed + more ≤ LATEST) :
    wholeSeconds (elapsed + more) ≤ wholeSeconds elapsed + wholeSeconds more + 2 := by
  obtain hneg | hnonneg := lt_or_ge elapsed 0
  · have hmono := @wholeSeconds_mono K _ _ _ _ _ _ (elapsed + more) more (by linarith)
    have hzero := wholeSeconds_nonneg elapsed
    omega
  · have hboth := (wholeSeconds_between (add_nonneg hnonneg hmore) hsum).2
    have hfirst := (wholeSeconds_between hnonneg (by linarith)).1
    have hsecond := (wholeSeconds_between hmore hlate).1
    have hadd := Int.le_floor_add_floor (elapsed / (MS_PER_SECOND : K)) (more / (MS_PER_SECOND : K))
    rw [← add_div] at hadd
    omega

theorem ClockReading.next_mono (reading : ClockReading K) {now later : K} (h : now ≤ later) :
    reading.next now ≤ reading.next later := by
  have hmono := wholeSeconds_mono (sub_le_sub_right h reading.arrivedAt)
  unfold ClockReading.next
  omega

theorem ClockReading.next_le_rebased (reading : ClockReading K) (m : Moment K) {stamp : Int} {later : K}
    (harrived : 0 ≤ reading.arrivedAt) (hm : 0 ≤ m.performance) (h : m.performance ≤ later) (hlate : later ≤ LATEST)
    (hstamp : reading.next m.performance < stamp) :
    reading.next later ≤ (⟨stamp, m.performance, m.date⟩ : ClockReading K).next later := by
  have hadd := @wholeSeconds_add_le K _ _ _ _ _ _ (m.performance - reading.arrivedAt) (later - m.performance)
    (sub_nonneg.mpr h) (by linarith) (by linarith)
  rw [show m.performance - reading.arrivedAt + (later - m.performance) = later - reading.arrivedAt by ring] at hadd
  unfold ClockReading.next at hstamp ⊢
  dsimp only
  omega

theorem DeviceClock.observe_never_lowers (clock : DeviceClock K) (m : Moment K) (stamp : Int) {later : K}
    (harrived : ∀ reading, clock.reading = some reading → 0 ≤ reading.arrivedAt) (hm : 0 ≤ m.performance)
    (h : m.performance ≤ later) (hlate : later ≤ LATEST) {value : Int} (hvalue : clock.next later = some value) :
    ∃ raised, (clock.observe m stamp).next later = some raised ∧ value ≤ raised := by
  rcases clock.observe_cases m stamp with hsame | ⟨hsync, reading, hreading, hlt⟩
  · exact ⟨value, by rw [hsame, hvalue], le_rfl⟩
  · rw [hsync]
    obtain rfl : reading.next later = value := by
      simpa [DeviceClock.next, hreading] using hvalue
    exact ⟨_, rfl, reading.next_le_rebased m (harrived reading hreading) hm h hlate hlt⟩

end HomelabApps.MiotDevice
