import CanSniffer.Drivers.FdcanIoctl

namespace CanSniffer.Drivers

open Lib

/-- A command to one of the drivers, or the tracer starting or stopping both. -/
inductive FdcanEvent
  | ioctl (channel : Channel) (cmd : IoctlCmd)
  | tracerStart (started : Channel → Bool)
  | tracerStop (a : Channel → StopAnswers)

abbrev FdcanDrivers := Channel → FdcanDriver

namespace FdcanDriver

def initialized (timing : BitTiming) : FdcanDriver where
  state := .initialized
  mode := .normal
  timing := timing
  running := false
  selectedOff := false

end FdcanDriver

namespace FdcanDrivers

def start (timing : BitTiming) : FdcanDrivers := fun _ => .initialized timing

def step : Step FdcanDrivers FdcanEvent
  | s, .ioctl channel cmd =>
    some fun c => if c = channel then ((s c).ioctl cmd).1 else s c
  | s, .tracerStart started => some fun c => (s c).tracerStart (started c)
  | s, .tracerStop a => some fun c => ((s c).ioctl (.stop (a c))).1

end FdcanDrivers

namespace FdcanDriver

variable {d : FdcanDriver}

/-- A controller that is selected to be off is off, and one that counts as started runs. -/
structure Honest (d : FdcanDriver) : Prop where
  off : d.selectedOff = true → d.state = .off ∧ d.running = false
  started : d.state = .started → d.running = true

/-- A stop that the HAL carries out is either completed or marked in `ErrorCode`. -/
def StopKept (d : FdcanDriver) (a : StopAnswers) : Prop :=
  d.state = .started → a.deactivated = true → a.stopped = true → a.aborted = true ∨ a.notStarted = true

/-- What the command must not be for the driver to stay honest. -/
def Kept (d : FdcanDriver) : IoctlCmd → Prop
  | .setMode mode _ => mode ≠ fdcanMode3
  | .stop a => d.StopKept a
  | _ => True

theorem init_spec (d : FdcanDriver) (initialized : Bool) :
    (d.init initialized).1.state = d.state ∧
      (d.init initialized).1.selectedOff = d.selectedOff ∧
      ((d.init initialized).2 = .success ∨ (d.init initialized).1.running = d.running) := by
  unfold init
  cases initialized <;> simp

theorem setBaudrate_spec (d : FdcanDriver) (baudrate : UInt32) (timings : Option BitTiming)
    (initialized : Bool) :
    (d.setBaudrate baudrate timings initialized).1.state = d.state ∧
      (d.setBaudrate baudrate timings initialized).1.selectedOff = d.selectedOff ∧
      ((d.setBaudrate baudrate timings initialized).2 = .success ∨
        (d.setBaudrate baudrate timings initialized).1.running = d.running) := by
  unfold setBaudrate
  split
  · cases timings with
    | none => simp
    | some timing => exact init_spec { d with timing } initialized
  · simp

theorem setMode_spec (d : FdcanDriver) (mode : UInt32) (initialized : Bool) :
    (d.setMode mode initialized).1.state = d.state ∧
      (d.setMode mode initialized).1.selectedOff = d.selectedOff ∧
      ((d.setMode mode initialized).2 = .success ∨
        (d.setMode mode initialized).1.running = d.running) ∧
      (mode = fdcanMode3 → (d.setMode mode initialized).2 ≠ .success) := by
  unfold setMode
  by_cases h₁ : mode = fdcanMode1
  · obtain ⟨hstate, hoff, hrunning⟩ := init_spec { d with mode := .normal } initialized
    rw [if_pos h₁]
    exact ⟨hstate, hoff, hrunning, fun h => absurd (h₁.symm.trans h) (by decide)⟩
  · by_cases h₂ : mode = fdcanMode2
    · obtain ⟨hstate, hoff, hrunning⟩ := init_spec { d with mode := .busMonitoring } initialized
      rw [if_neg h₁, if_pos h₂]
      exact ⟨hstate, hoff, hrunning, fun h => absurd (h₂.symm.trans h) (by decide)⟩
    · by_cases h₄ : mode = fdcanMode4
      · obtain ⟨hstate, hoff, hrunning⟩ :=
          init_spec { d with mode := .externalLoopback } initialized
        rw [if_neg h₁, if_neg h₂, if_pos h₄]
        exact ⟨hstate, hoff, hrunning, fun h => absurd (h₄.symm.trans h) (by decide)⟩
      · rw [if_neg h₁, if_neg h₂, if_neg h₄]
        simp

theorem Honest.selectedOff (h : d.Honest) (hoff : d.state ≠ .off) : d.selectedOff = false := by
  cases hsel : d.selectedOff with
  | false => rfl
  | true => exact absurd (h.off hsel).1 hoff

theorem Honest.of_selectedOff (hsel : d.selectedOff = false)
    (hstarted : d.state = .started → d.running = true) : d.Honest where
  off := by simp [hsel]
  started := hstarted

theorem start_cases (d : FdcanDriver) (started : Bool) :
    (d.start started).1 = { d with state := .started } ∧ d.state = .started ∨
      (d.start started).1 = { d with state := .started, running := true } ∨
      (d.start started).1 = d := by
  unfold start
  by_cases hstate : d.state = .started
  · simp [hstate]
  · cases started <;> simp [hstate]

theorem stop_cases (d : FdcanDriver) (a : StopAnswers) :
    (d.stop a).1.selectedOff = d.selectedOff ∧
      ((d.stop a).1.state = .stopped ∨
        (d.stop a).1 = d ∧ d.StopKept a ∨
        (d.stop a).1 = { d with running := false } ∧ d.state = .started ∧ ¬d.StopKept a) ∧
      ((d.stop a).1.state = .stopped → d.StopKept a) := by
  unfold stop StopKept
  by_cases hstate : d.state = .started
  · cases hd : a.deactivated <;> cases hs : a.stopped <;> cases ha : a.aborted <;>
      cases hn : a.notStarted <;> simp [hstate]
  · simp [hstate]

theorem ioctl_state_ne_off (h : d.state ≠ .off) (cmd : IoctlCmd) : (d.ioctl cmd).1.state ≠ .off := by
  cases cmd with
  | setBaudrate baudrate timings initialized =>
    obtain ⟨hstate, -⟩ := setBaudrate_spec d baudrate timings initialized
    simp only [ioctl]
    split
    · simp
    · rw [hstate]
      exact h
  | setFilterMask => exact h
  | start started =>
    simp only [ioctl]
    rcases start_cases d started with ⟨heq, -⟩ | heq | heq
    · simp [heq]
    · simp [heq]
    · rw [heq]
      exact h
  | stop a =>
    simp only [ioctl]
    rcases (stop_cases d a).2.1 with hstate | ⟨heq, -⟩ | ⟨heq, -⟩
    · simp [hstate]
    · rw [heq]
      exact h
    · rw [heq]
      exact h
  | setMode mode initialized =>
    obtain ⟨hstate, -, -, hmode⟩ :=
      setMode_spec { d with selectedOff := decide (mode = fdcanMode3) } mode initialized
    simp only [ioctl]
    rw [if_neg fun hboth => hmode hboth.2 hboth.1]
    split
    · simp
    · rw [hstate]
      exact h

theorem honest_ioctl (hoff : d.state ≠ .off) (h : d.Honest) (cmd : IoctlCmd) :
    (d.ioctl cmd).1.Honest ↔ d.Kept cmd := by
  have hsel := h.selectedOff hoff
  cases cmd with
  | setBaudrate baudrate timings initialized =>
    obtain ⟨hstate, hsame, hrunning⟩ := setBaudrate_spec d baudrate timings initialized
    refine iff_of_true ?_ trivial
    simp only [ioctl]
    split
    · exact .of_selectedOff (hsame.trans hsel) (by simp)
    · next hres =>
      refine .of_selectedOff (hsame.trans hsel) fun hstarted => ?_
      rw [hrunning.resolve_left hres]
      exact h.started (hstate.symm.trans hstarted)
  | setFilterMask => exact iff_of_true h trivial
  | start started =>
    refine iff_of_true ?_ trivial
    simp only [ioctl]
    rcases start_cases d started with ⟨heq, hstarted⟩ | heq | heq
    · rw [heq]
      exact .of_selectedOff hsel fun _ => h.started hstarted
    · rw [heq]
      exact .of_selectedOff hsel fun _ => rfl
    · rw [heq]
      exact h
  | stop a =>
    obtain ⟨hsame, hcases, hkept⟩ := stop_cases d a
    simp only [ioctl, Kept]
    rcases hcases with hstate | ⟨heq, hstop⟩ | ⟨heq, hstarted, hstop⟩
    · refine iff_of_true (.of_selectedOff (hsame.trans hsel) ?_) (hkept hstate)
      simp [hstate]
    · rw [heq]
      exact iff_of_true h hstop
    · rw [heq]
      refine iff_of_false (fun hhonest => ?_) hstop
      exact Bool.false_ne_true (hhonest.started hstarted)
  | setMode mode initialized =>
    obtain ⟨hstate, hsame, hrunning, hmode⟩ :=
      setMode_spec { d with selectedOff := decide (mode = fdcanMode3) } mode initialized
    simp only [ioctl, Kept]
    rw [if_neg fun hboth => hmode hboth.2 hboth.1]
    by_cases h3 : mode = fdcanMode3
    · refine iff_of_false (fun hhonest => ?_) (fun hne => hne h3)
      rw [if_neg (hmode h3)] at hhonest
      have hselected := hsame.trans (decide_eq_true h3)
      exact hoff (hstate.symm.trans (hhonest.off hselected).1)
    · refine iff_of_true ?_ h3
      have hselected := hsame.trans (decide_eq_false h3)
      split
      · exact .of_selectedOff hselected (by simp)
      · next hres =>
        refine .of_selectedOff hselected fun hstarted => ?_
        rw [hrunning.resolve_left hres]
        exact h.started (hstate.symm.trans hstarted)

theorem tracerStart_spec (hoff : d.state ≠ .off) (h : d.Honest) (started : Bool) :
    (d.tracerStart started).state ≠ .off ∧ (d.tracerStart started).Honest := by
  unfold tracerStart
  rw [if_neg hoff]
  exact ⟨ioctl_state_ne_off hoff _, (honest_ioctl hoff h _).mpr trivial⟩

end FdcanDriver

namespace FdcanDrivers

def Kept (s : FdcanDrivers) : FdcanEvent → Prop
  | .ioctl channel cmd => (s channel).Kept cmd
  | .tracerStart _ => True
  | .tracerStop a => ∀ c, (s c).StopKept (a c)

def Inv (s : FdcanDrivers) : Prop := ∀ c, (s c).state ≠ .off

theorem step_inv {s t : FdcanDrivers} {e : FdcanEvent} (h : Inv s) (hs : step s e = some t) :
    Inv t := by
  cases e with
  | ioctl channel cmd =>
    cases hs
    intro c
    by_cases hc : c = channel
    · simp only [hc, if_true]
      exact FdcanDriver.ioctl_state_ne_off (h channel) cmd
    · simp only [hc, if_false]
      exact h c
  | tracerStart started =>
    cases hs
    intro c
    simp only [FdcanDriver.tracerStart, if_neg (h c)]
    exact FdcanDriver.ioctl_state_ne_off (h c) _
  | tracerStop a =>
    cases hs
    intro c
    exact FdcanDriver.ioctl_state_ne_off (h c) _

theorem honest_step {s t : FdcanDrivers} {e : FdcanEvent} (h : Inv s)
    (hp : ∀ c, (s c).Honest) (hs : step s e = some t) : (∀ c, (t c).Honest) ↔ s.Kept e := by
  cases e with
  | ioctl channel cmd =>
    cases hs
    have hiff := FdcanDriver.honest_ioctl (h channel) (hp channel) cmd
    constructor
    · intro hall
      have hchannel := hall channel
      simp only [if_true] at hchannel
      exact hiff.mp hchannel
    · intro hkept c
      by_cases hc : c = channel
      · simp only [hc, if_true]
        exact hiff.mpr hkept
      · simp only [hc, if_false]
        exact hp c
  | tracerStart started =>
    cases hs
    exact iff_of_true (fun c => (FdcanDriver.tracerStart_spec (h c) (hp c) (started c)).2) trivial
  | tracerStop a =>
    cases hs
    exact forall_congr' fun c => FdcanDriver.honest_ioctl (h c) (hp c) (.stop (a c))

/-- The drivers are honest exactly as long as nobody asks for mode 3, and no stop comes off without
the HAL either aborting the requests or saying that the controller does not run. -/
theorem honest_iff (timing : BitTiming) (es : List FdcanEvent) :
    Step.Throughout step (fun s => ∀ c, (s c).Honest) (start timing) es ↔
      Step.Along step Kept (start timing) es := by
  apply Step.throughout_iff_along (I := Inv)
  · exact step_inv
  · exact honest_step
  · rintro s e - hs
    cases e <;> contradiction
  · intro c
    simp [start, FdcanDriver.initialized]
  · intro c
    exact .of_selectedOff rfl (by simp [start, FdcanDriver.initialized])

/-- Mode 3 is refused, and the controller that should be off is started. -/
theorem off_controller_started :
    ¬Step.Throughout step (fun s => ∀ c, (s c).Honest) (start ⟨5, 11, 4, 1⟩)
      [.ioctl .can1 (.setMode fdcanMode3 true), .tracerStart fun _ => true] := by
  intro hall
  have hhonest := hall _ _ (List.prefix_refl _) rfl .can1
  exact absurd (hhonest.off rfl).2 (by decide)

end FdcanDrivers

end CanSniffer.Drivers
