import HomelabApps.Library.Transition
import HomelabApps.MiotDevice.DeviceClock

universe u

namespace HomelabApps.MiotDevice

open HomelabApps.Library
open HomelabApps.Library.Transition

variable {K : Type u} [Field K] [LinearOrder K] [FloorRing K]

/-- The stamp of a device of phase `φ`, in seconds, at a local time in milliseconds. -/
def deviceStamp (φ now : K) : Int := ⌊now / (MS_PER_SECOND : K) + φ⌋

def agedStamp (φ age now : K) : Int := ⌊now / (MS_PER_SECOND : K) - age + φ⌋

theorem agedStamp_zero (φ now : K) : agedStamp φ 0 now = deviceStamp φ now := by
  rw [agedStamp, deviceStamp, sub_zero]

section

variable [IsStrictOrderedRing K]

theorem deviceStamp_mono (φ : K) {now later : K} (h : now ≤ later) :
    deviceStamp φ now ≤ deviceStamp φ later := by
  unfold deviceStamp
  gcongr

theorem deviceStamp_le_aged (φ now later : K) {age δ : K} (hage : age ≤ δ) :
    deviceStamp φ later ≤
      agedStamp φ age now + ⌊(later - now) / (MS_PER_SECOND : K)⌋ + 1 + ⌈δ⌉ := by
  have hsplit : later / (MS_PER_SECOND : K) + φ ≤
      now / (MS_PER_SECOND : K) - age + φ + (later - now) / (MS_PER_SECOND : K) + (⌈δ⌉ : K) := by
    have hceil : δ ≤ (⌈δ⌉ : K) := Int.le_ceil δ
    rw [sub_div]
    linarith
  have hfloor := Int.floor_mono hsplit
  rw [Int.floor_add_intCast] at hfloor
  have hadd := Int.le_floor_add_floor (now / (MS_PER_SECOND : K) - age + φ)
    ((later - now) / (MS_PER_SECOND : K))
  unfold deviceStamp agedStamp
  omega

theorem deviceStamp_add_le (φ now later : K) :
    deviceStamp φ now + ⌊(later - now) / (MS_PER_SECOND : K)⌋ ≤ deviceStamp φ later := by
  have hadd := Int.le_floor_add (now / (MS_PER_SECOND : K) + φ) ((later - now) / (MS_PER_SECOND : K))
  have heq : now / (MS_PER_SECOND : K) + φ + (later - now) / (MS_PER_SECOND : K) =
      later / (MS_PER_SECOND : K) + φ := by
    rw [sub_div]
    ring
  rwa [heq] at hadd

end

inductive ClockCall (K : Type u)
  | sync (age : K)
  | observe (age : K)
  | echo (stamp : Int)
  | next
  deriving DecidableEq, Repr

structure Returned (K : Type u) where
  time : K
  value : Int
  deriving DecidableEq, Repr

/-- A clock in use: `now` is the time of the last call, `returned` what `next` has returned and `taken` how many echoes
the clock took for a device ahead of it. -/
structure ClockRun (K : Type u) [Zero K] where
  clock : DeviceClock K := {}
  now : K := 0
  returned : List (Returned K) := []
  taken : Nat := 0
  deriving DecidableEq, Repr

variable [Rounding K]

def ClockRun.call (φ δ : K) (s : ClockRun K) (m : Moment K) : ClockCall K → Option (ClockRun K)
  | .sync age =>
    if 0 ≤ age ∧ age ≤ δ then
      some { s with clock := s.clock.sync m (agedStamp φ age m.performance), now := m.performance }
    else none
  | .observe age =>
    if 0 ≤ age ∧ age ≤ δ then
      some { s with clock := s.clock.observe m (agedStamp φ age m.performance), now := m.performance }
    else none
  | .echo stamp =>
    if stamp ∈ s.returned.map (·.value) then
      some { s with
        clock := s.clock.observe m stamp
        now := m.performance
        taken := s.taken + if (s.clock.next m.performance).any (· < stamp) then 1 else 0 }
    else none
  | .next =>
    match s.clock.next m.performance with
    | none => some { s with now := m.performance }
    | some value =>
      some { s with now := m.performance, returned := s.returned ++ [⟨m.performance, value⟩] }

def ClockRun.step (φ δ : K) (s : ClockRun K) (call : Moment K × ClockCall K) :
    Option (ClockRun K) :=
  if s.now ≤ call.1.performance ∧ call.1.performance ≤ LATEST then s.call φ δ call.1 call.2 else none

/-- What is returned rests on no second that only the rounding has completed. -/
def ClockRun.Exact (s : ClockRun K) : Moment K × ClockCall K → Prop
  | (m, .next) => ∀ reading ∈ s.clock.reading,
      wholeSeconds (m.performance - reading.arrivedAt) = ⌊(m.performance - reading.arrivedAt) / (MS_PER_SECOND : K)⌋
  | _ => True

instance (s : ClockRun K) (call : Moment K × ClockCall K) : Decidable (s.Exact call) := by
  unfold ClockRun.Exact
  split <;> infer_instance

variable {φ δ : K} {s t : ClockRun K} {m : Moment K} {call : ClockCall K}

inductive ClockRun.Calls (φ δ : K) (s : ClockRun K) (m : Moment K) : ClockCall K → ClockRun K → Prop
  | synced {age : K} : 0 ≤ age → age ≤ δ → Calls φ δ s m (.sync age)
      { s with clock := s.clock.sync m (agedStamp φ age m.performance), now := m.performance }
  | unchanged {call : ClockCall K} : Calls φ δ s m call { s with now := m.performance }
  | observed {age : K} {reading : ClockReading K} : 0 ≤ age → age ≤ δ → s.clock.reading = some reading →
      reading.next m.performance < agedStamp φ age m.performance → Calls φ δ s m (.observe age)
        { s with clock := s.clock.sync m (agedStamp φ age m.performance), now := m.performance }
  | echoed {r : Returned K} {reading : ClockReading K} : r ∈ s.returned → s.clock.reading = some reading →
      reading.next m.performance < r.value → Calls φ δ s m (.echo r.value)
        { s with clock := s.clock.sync m r.value, now := m.performance, taken := s.taken + 1 }
  | returned {reading : ClockReading K} : s.clock.reading = some reading → Calls φ δ s m .next
      { s with now := m.performance, returned := s.returned ++ [⟨m.performance, reading.next m.performance⟩] }

theorem call_cases (h : s.call φ δ m call = some t) : ClockRun.Calls φ δ s m call t := by
  cases call with
  | sync age =>
    obtain ⟨⟨hage, hle⟩, h⟩ := Option.ite_none_right_eq_some.mp h
    obtain rfl := Option.some.inj h
    exact .synced hage hle
  | observe age =>
    obtain ⟨⟨hage, hle⟩, h⟩ := Option.ite_none_right_eq_some.mp h
    obtain rfl := Option.some.inj h
    obtain hsame | ⟨hsync, reading, hreading, hlt⟩ := s.clock.observe_cases m (agedStamp φ age m.performance)
    · rw [hsame]
      exact .unchanged
    · rw [hsync]
      exact .observed hage hle hreading hlt
  | echo stamp =>
    obtain ⟨hmem, h⟩ := Option.ite_none_right_eq_some.mp h
    obtain rfl := Option.some.inj h
    obtain ⟨r, hr, rfl⟩ := List.mem_map.mp hmem
    rw [DeviceClock.observe, DeviceClock.next]
    cases hreading : s.clock.reading with
    | none => exact .unchanged
    | some reading =>
      simp only [Option.map_some, Option.any_some]
      split_ifs with hlt hany hany
      · exact .echoed hr hreading hlt
      · exact absurd (decide_eq_true hlt) hany
      · exact absurd (of_decide_eq_true hany) hlt
      · exact .unchanged
  | next =>
    simp only [ClockRun.call] at h
    split at h
    · obtain rfl := Option.some.inj h
      exact .unchanged
    · next value hvalue =>
      obtain rfl := Option.some.inj h
      obtain ⟨reading, hreading, rfl⟩ := Option.map_eq_some_iff.mp hvalue
      exact .returned hreading

theorem step_calls {call : Moment K × ClockCall K} (h : s.step φ δ call = some t) :
    s.now ≤ call.1.performance ∧ call.1.performance ≤ LATEST ∧ ClockRun.Calls φ δ s call.1 call.2 t := by
  obtain ⟨⟨hnow, hlate⟩, hcall⟩ := Option.ite_none_right_eq_some.mp h
  exact ⟨hnow, hlate, call_cases hcall⟩

structure Timed (s : ClockRun K) : Prop where
  started : 0 ≤ s.now
  arrived : ∀ reading, s.clock.reading = some reading → 0 ≤ reading.arrivedAt ∧ reading.arrivedAt ≤ s.now

theorem timed_calls (h : Timed s) (hnow : s.now ≤ m.performance) (hcalls : ClockRun.Calls φ δ s m call t) :
    Timed t := by
  have hstarted := h.started.trans hnow
  have harrived : ∀ reading, s.clock.reading = some reading →
      0 ≤ reading.arrivedAt ∧ reading.arrivedAt ≤ m.performance :=
    fun reading hreading => ⟨(h.arrived reading hreading).1, (h.arrived reading hreading).2.trans hnow⟩
  have hsynced : ∀ stamp reading, (s.clock.sync m stamp).reading = some reading →
      0 ≤ reading.arrivedAt ∧ reading.arrivedAt ≤ m.performance := by
    intro stamp reading hreading
    obtain rfl := Option.some.inj hreading
    exact ⟨hstarted, le_rfl⟩
  cases hcalls with
  | synced => exact ⟨hstarted, hsynced _⟩
  | observed => exact ⟨hstarted, hsynced _⟩
  | echoed => exact ⟨hstarted, hsynced _⟩
  | unchanged => exact ⟨hstarted, harrived⟩
  | returned => exact ⟨hstarted, harrived⟩

variable [IsStrictOrderedRing K]

omit [FloorRing K] [Rounding K] in
theorem Timed.elapsed (h : Timed s) (hnow : s.now ≤ m.performance) (hlate : m.performance ≤ LATEST)
    {reading : ClockReading K} (hreading : s.clock.reading = some reading) :
    0 ≤ m.performance - reading.arrivedAt ∧ m.performance - reading.arrivedAt ≤ LATEST := by
  obtain ⟨hnonneg, harrived⟩ := h.arrived reading hreading
  constructor <;> linarith

variable [Rounding.Faithful K]

structure NotBehind (φ δ : K) (s : ClockRun K) : Prop extends Timed s where
  reading : ∀ reading, s.clock.reading = some reading → ∀ later, s.now ≤ later → later ≤ LATEST →
    deviceStamp φ later ≤ reading.next later + ⌈δ⌉
  returned : ∀ r ∈ s.returned, deviceStamp φ r.time - ⌈δ⌉ ≤ r.value

structure NotAhead (φ : K) (s : ClockRun K) : Prop extends Timed s where
  reading : ∀ reading, s.clock.reading = some reading → reading.stamp = deviceStamp φ reading.arrivedAt
  returned : ∀ r ∈ s.returned, r.time ≤ s.now ∧ r.value ≤ deviceStamp φ r.time + 1
  echoes : ∀ r ∈ s.returned, ∀ reading, s.clock.reading = some reading → ∀ later, s.now ≤ later →
    r.value ≤ reading.next later

structure Drifted (φ : K) (s : ClockRun K) : Prop extends Timed s where
  reading : ∀ reading, s.clock.reading = some reading →
    reading.stamp ≤ deviceStamp φ reading.arrivedAt + 2 * s.taken
  returned : ∀ r ∈ s.returned, r.time ≤ s.now ∧ r.value ≤ deviceStamp φ r.time + 2 + 2 * s.taken

theorem notBehind_calls (h : NotBehind φ δ s) (hnow : s.now ≤ m.performance) (hlate : m.performance ≤ LATEST)
    (hcalls : ClockRun.Calls φ δ s m call t) : NotBehind φ δ t := by
  have htimed := timed_calls h.toTimed hnow hcalls
  have hkeep : ∀ reading, s.clock.reading = some reading → ∀ later, m.performance ≤ later → later ≤ LATEST →
      deviceStamp φ later ≤ reading.next later + ⌈δ⌉ :=
    fun reading hreading later hlater => h.reading reading hreading later (hnow.trans hlater)
  -- A stamp ahead of what would be sent leaves the clock further ahead.
  have hraised : ∀ stamp before, s.clock.reading = some before → before.next m.performance < stamp →
      ∀ reading, (s.clock.sync m stamp).reading = some reading → ∀ later, m.performance ≤ later → later ≤ LATEST →
        deviceStamp φ later ≤ reading.next later + ⌈δ⌉ := by
    intro stamp before hbefore hlt reading hreading later hlater hlatest
    obtain rfl := Option.some.inj hreading
    have hle := hkeep before hbefore later hlater hlatest
    have hnext := before.next_le_rebased m (h.arrived before hbefore).1 (h.started.trans hnow) hlater hlatest hlt
    omega
  cases hcalls with
  | synced hage hle =>
    refine { htimed with reading := fun reading hreading later hlater hlatest => ?_, returned := h.returned }
    obtain rfl := Option.some.inj hreading
    have haged := deviceStamp_le_aged φ m.performance later hle
    have hstarted := h.started.trans hnow
    have hbetween := (@wholeSeconds_between K _ _ _ _ _ _ (later - m.performance) (sub_nonneg.mpr hlater)
      (by linarith)).1
    unfold ClockReading.next
    dsimp only
    omega
  | unchanged => exact { htimed with reading := hkeep, returned := h.returned }
  | observed _ _ hbefore hlt => exact { htimed with reading := hraised _ _ hbefore hlt, returned := h.returned }
  | echoed _ hbefore hlt => exact { htimed with reading := hraised _ _ hbefore hlt, returned := h.returned }
  | @returned reading hreading =>
    refine { htimed with reading := hkeep, returned := fun r hr => ?_ }
    rcases List.mem_append.mp hr with hr | hr
    · exact h.returned r hr
    · obtain rfl := List.mem_singleton.mp hr
      have hle := hkeep reading hreading m.performance le_rfl hlate
      dsimp only
      omega

theorem notAhead_calls (h : NotAhead φ s) (hnow : s.now ≤ m.performance) (hlate : m.performance ≤ LATEST)
    (hexact : s.Exact (m, call)) (hcalls : ClockRun.Calls φ 0 s m call t) : NotAhead φ t := by
  have htimed := timed_calls h.toTimed hnow hcalls
  have hreturned : ∀ r ∈ s.returned, r.time ≤ m.performance ∧ r.value ≤ deviceStamp φ r.time + 1 :=
    fun r hr => ⟨(h.returned r hr).1.trans hnow, (h.returned r hr).2⟩
  have hechoes : ∀ r ∈ s.returned, ∀ reading, s.clock.reading = some reading →
      ∀ later, m.performance ≤ later → r.value ≤ reading.next later :=
    fun r hr reading hreading later hle => h.echoes r hr reading hreading later (hnow.trans hle)
  cases hcalls with
  | synced hage hle =>
    obtain rfl := le_antisymm hle hage
    refine { htimed with reading := ?_, returned := hreturned, echoes := ?_ }
    · rintro _ ⟨⟩
      exact agedStamp_zero φ m.performance
    · rintro r hr _ ⟨⟩ later hlater
      have hvalue := (h.returned r hr).2
      have hmono := deviceStamp_mono φ (hreturned r hr).1
      have hnonneg := wholeSeconds_nonneg (later - m.performance)
      rw [agedStamp_zero]
      unfold ClockReading.next
      dsimp only
      omega
  | unchanged => exact { htimed with reading := h.reading, returned := hreturned, echoes := hechoes }
  | @observed age reading hage hle hreading hlt =>
    -- The device's own stamp is not ahead of what would be sent.
    obtain rfl := le_antisymm hle hage
    obtain ⟨helapsed, hlatest⟩ := h.elapsed hnow hlate hreading
    have hbelow := (wholeSeconds_between helapsed hlatest).1
    have haged := deviceStamp_le_aged φ reading.arrivedAt m.performance (le_refl (0 : K))
    rw [agedStamp_zero, Int.ceil_zero] at haged
    rw [agedStamp_zero, ClockReading.next, h.reading reading hreading] at hlt
    omega
  | @echoed r reading hr hreading hlt =>
    exact absurd (h.echoes r hr reading hreading m.performance hnow) (not_le.mpr hlt)
  | @returned reading hreading =>
    refine { htimed with reading := h.reading, returned := fun r hr => ?_, echoes := ?_ }
    · rcases List.mem_append.mp hr with hr | hr
      · exact hreturned r hr
      · obtain rfl := List.mem_singleton.mp hr
        have hadd := deviceStamp_add_le φ reading.arrivedAt m.performance
        refine ⟨le_rfl, ?_⟩
        rw [ClockReading.next, hexact reading hreading, h.reading reading hreading]
        dsimp only
        omega
    · intro r hr now hnow' later hle
      obtain rfl : reading = now := Option.some.inj (hreading.symm.trans hnow')
      rcases List.mem_append.mp hr with hr | hr
      · exact hechoes r hr reading hreading later hle
      · obtain rfl := List.mem_singleton.mp hr
        exact reading.next_mono hle

theorem drifted_calls (h : Drifted φ s) (hnow : s.now ≤ m.performance) (hlate : m.performance ≤ LATEST)
    (hcalls : ClockRun.Calls φ 0 s m call t) : Drifted φ t := by
  have htimed := timed_calls h.toTimed hnow hcalls
  have hreturned : ∀ r ∈ s.returned, r.time ≤ m.performance ∧ r.value ≤ deviceStamp φ r.time + 2 + 2 * s.taken :=
    fun r hr => ⟨(h.returned r hr).1.trans hnow, (h.returned r hr).2⟩
  cases hcalls with
  | synced hage hle =>
    obtain rfl := le_antisymm hle hage
    refine { htimed with reading := ?_, returned := hreturned }
    rintro _ ⟨⟩
    rw [agedStamp_zero]
    dsimp only
    omega
  | unchanged => exact { htimed with reading := h.reading, returned := hreturned }
  | observed hage hle =>
    obtain rfl := le_antisymm hle hage
    refine { htimed with reading := ?_, returned := hreturned }
    rintro _ ⟨⟩
    rw [agedStamp_zero]
    dsimp only
    omega
  | @echoed r _ hr =>
    refine { htimed with reading := ?_, returned := fun r' hr' => ⟨(hreturned r' hr').1, ?_⟩ }
    · rintro _ ⟨⟩
      have hvalue := (hreturned r hr).2
      have hmono := deviceStamp_mono φ (hreturned r hr).1
      dsimp only
      omega
    · have hvalue := (hreturned r' hr').2
      dsimp only
      omega
  | @returned reading hreading =>
    refine { htimed with reading := h.reading, returned := fun r hr => ?_ }
    rcases List.mem_append.mp hr with hr | hr
    · exact hreturned r hr
    · obtain rfl := List.mem_singleton.mp hr
      obtain ⟨helapsed, hlatest⟩ := h.elapsed hnow hlate hreading
      have habove := (wholeSeconds_between helapsed hlatest).2
      have hstamp := h.reading reading hreading
      have hadd := deviceStamp_add_le φ reading.arrivedAt m.performance
      refine ⟨le_rfl, ?_⟩
      unfold ClockReading.next
      dsimp only
      omega

theorem notBehind_run {calls : List (Moment K × ClockCall K)} (h : run (ClockRun.step φ δ) {} calls = some s) :
    NotBehind φ δ s := by
  refine invariant (fun s call t hbehind hstep => ?_) ⟨⟨le_rfl, by rintro _ ⟨⟩⟩, by rintro _ ⟨⟩, by rintro _ ⟨⟩⟩ h
  obtain ⟨hnow, hlate, hcalls⟩ := step_calls hstep
  exact notBehind_calls hbehind hnow hlate hcalls

theorem notAhead_run {calls : List (Moment K × ClockCall K)} (h : run (ClockRun.step φ 0) {} calls = some s)
    (hexact : Along (ClockRun.step φ 0) ClockRun.Exact {} calls) : NotAhead φ s := by
  have hahead : Always (ClockRun.step φ 0) (NotAhead φ) {} calls := by
    refine always_of_along (fun s call t hahead hexact hstep => ?_)
      ⟨⟨le_rfl, by rintro _ ⟨⟩⟩, by rintro _ ⟨⟩, by rintro _ ⟨⟩, by rintro _ ⟨⟩⟩ hexact
    obtain ⟨hnow, hlate, hcalls⟩ := step_calls hstep
    exact notAhead_calls hahead hnow hlate hexact hcalls
  exact hahead.last h

theorem drifted_run {calls : List (Moment K × ClockCall K)} (h : run (ClockRun.step φ 0) {} calls = some s) :
    Drifted φ s := by
  refine invariant (fun s call t hdrifted hstep => ?_) ⟨⟨le_rfl, by rintro _ ⟨⟩⟩, by rintro _ ⟨⟩, by rintro _ ⟨⟩⟩ h
  obtain ⟨hnow, hlate, hcalls⟩ := step_calls hstep
  exact drifted_calls hdrifted hnow hlate hcalls

theorem clock_tracks_device {calls : List (Moment K × ClockCall K)}
    (h : run (ClockRun.step φ δ) {} calls = some s) :
    (∀ r ∈ s.returned, deviceStamp φ r.time - ⌈δ⌉ ≤ r.value) ∧
    (δ = 0 → Along (ClockRun.step φ δ) ClockRun.Exact {} calls →
      ∀ r ∈ s.returned, r.value ≤ deviceStamp φ r.time + 1) ∧
    (δ = 0 → ∀ r ∈ s.returned, r.value ≤ deviceStamp φ r.time + 2 + 2 * s.taken) ∧
    ∀ (m : Moment K) (stamp : Int) (later : K) (value : Int), 0 ≤ m.performance → m.performance ≤ later →
      later ≤ LATEST → s.clock.next later = some value →
        ∃ raised, (s.clock.observe m stamp).next later = some raised ∧ value ≤ raised := by
  have hbehind := notBehind_run h
  refine ⟨hbehind.returned, ?_, ?_, fun m stamp later value hm hle hlate hvalue => ?_⟩
  · rintro rfl hexact r hr
    exact ((notAhead_run h hexact).returned r hr).2
  · rintro rfl r hr
    exact ((drifted_run h).returned r hr).2
  · exact s.clock.observe_never_lowers m stamp (fun reading hreading => (hbehind.arrived reading hreading).1) hm hle
      hlate hvalue

def laggingCalls : List (Moment ℚ × ClockCall ℚ) :=
  [(⟨1000, 1000⟩, .sync (3 / 2)), (⟨1000, 1000⟩, .next), (⟨1900, 1900⟩, .echo 1),
    (⟨1900, 1900⟩, .observe 0), (⟨2600, 2600⟩, .next)]

def freshCalls : List (Moment ℚ × ClockCall ℚ) :=
  [(⟨1000, 1000⟩, .sync 0), (⟨1900, 1900⟩, .next), (⟨2100, 2100⟩, .observe 0), (⟨2300, 2300⟩, .next),
    (⟨2300, 2300⟩, .echo 3), (⟨2400, 2400⟩, .sync 0), (⟨2600, 2600⟩, .next)]

theorem clock_tracks_device_both :
    (∃ s : ClockRun ℚ, s.returned = [⟨1000, 1⟩, ⟨2600, 3⟩] ∧
      (∀ r ∈ s.returned, deviceStamp (1 / 2) r.time - ⌈(3 / 2 : ℚ)⌉ ≤ r.value) ∧
      ∀ (m : Moment ℚ) (stamp : Int) (later : ℚ) (value : Int), 0 ≤ m.performance → m.performance ≤ later →
        later ≤ LATEST → s.clock.next later = some value →
          ∃ raised, (s.clock.observe m stamp).next later = some raised ∧ value ≤ raised) ∧
    ∃ s : ClockRun ℚ, s.returned = [⟨1900, 2⟩, ⟨2300, 3⟩, ⟨2600, 3⟩] ∧ s.taken = 0 ∧
      (∀ r ∈ s.returned, r.value ≤ deviceStamp (1 / 2) r.time + 1) ∧
      ∀ r ∈ s.returned, r.value ≤ deviceStamp (1 / 2) r.time + 2 + 2 * s.taken := by
  have hlagging : run (ClockRun.step (1 / 2 : ℚ) (3 / 2)) {} laggingCalls =
      some ⟨⟨some ⟨2, 1900, 1900⟩⟩, 2600, [⟨1000, 1⟩, ⟨2600, 3⟩], 0⟩ := by
    decide +kernel
  have hfresh : run (ClockRun.step (1 / 2 : ℚ) 0) {} freshCalls =
      some ⟨⟨some ⟨2, 2400, 2400⟩⟩, 2600, [⟨1900, 2⟩, ⟨2300, 3⟩, ⟨2600, 3⟩], 0⟩ := by
    decide +kernel
  have hexact : Along (ClockRun.step (1 / 2 : ℚ) 0) ClockRun.Exact {} freshCalls := by decide +kernel
  obtain ⟨hbehind, -, -, hraised⟩ := clock_tracks_device hlagging
  obtain ⟨-, hahead, hdrifted, -⟩ := clock_tracks_device hfresh
  exact ⟨⟨_, rfl, hbehind, hraised⟩, _, rfl, rfl, hahead rfl hexact, hdrifted rfl⟩

def arrival : ℚ := 8986864896867385 / 2 ^ 38

def almost : ℚ := arrival + 61000 - 1 / 2 ^ 38

/-- The difference of the two doubles is rounded up to 61 seconds, which the device has not reached. -/
theorem ahead_by_two : Rounding.rounded arrival = arrival ∧ Rounding.rounded almost = almost ∧
    ∃ s : ClockRun ℚ,
      run (ClockRun.step (33 - arrival / 1000) 0) {} [(⟨arrival, 0⟩, .sync 0), (⟨almost, 0⟩, .next)] = some s ∧
      ¬∀ r ∈ s.returned, r.value ≤ deviceStamp (33 - arrival / 1000) r.time + 1 := by
  refine ⟨by decide +kernel, by decide +kernel, ?_⟩
  have hrun : run (ClockRun.step (33 - arrival / 1000) 0) {} [(⟨arrival, 0⟩, .sync 0), (⟨almost, 0⟩, .next)] =
      some ⟨⟨some ⟨33, arrival, 0⟩⟩, almost, [⟨almost, 95⟩], 0⟩ := by
    decide +kernel
  refine ⟨_, hrun, fun hclaim => ?_⟩
  have hle := hclaim ⟨almost, 95⟩ (List.mem_singleton_self _)
  have hstamp : deviceStamp (33 - arrival / 1000) almost = 93 := by decide +kernel
  rw [hstamp] at hle
  dsimp only at hle
  omega

end HomelabApps.MiotDevice
