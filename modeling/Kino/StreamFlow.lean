import Mathlib

/- One stream of chunks, abstractly. A writer hands its chunks to a channel, one call
   after another; a slot keeps a sender of that channel until somebody ends or cuts the
   stream; a reader takes the frames. A call may find the slot empty or be stopped, and
   once stopped the writer stays so. -/
namespace StreamFlow

inductive Frame (α : Type) where
  | data (a : α)
  | cut
  deriving DecidableEq, Repr

inductive Ending where
  | ended
  | cut
  deriving DecidableEq, Repr

/-- Where the writer is; `opening` is with the sender in hand, before the slot has it. -/
inductive Phase (α : Type) where
  | unopened
  | opening
  | idle
  | starting (a : α)
  | checking (a : α)
  | attempting (a : α)
  deriving DecidableEq, Repr

/-- `cutting` is a cut whose frame is still to be sent. The last three fields are history:
    the chunks of all calls, those of the calls that succeeded, and how the slot was emptied. -/
structure Flow (α : Type) where
  reader : Bool
  buf : List (Frame α)
  senders : Nat
  slot : Bool
  cutting : Bool
  taken : List (Frame α)
  stopped : Bool
  phase : Phase α
  given : List α
  accepted : List α
  emptied : Option Ending

variable {α : Type}

def payloads : List (Frame α) → List α
  | [] => []
  | .data a :: fs => a :: payloads fs
  | .cut :: fs => payloads fs

theorem payloads_append (fs gs : List (Frame α)) :
    payloads (fs ++ gs) = payloads fs ++ payloads gs := by
  induction fs with
  | nil => rfl
  | cons f fs ih =>
    cases f with
    | data a => simp [payloads, ih]
    | cut => simp [payloads, ih]

def Flow.out (s : Flow α) : List (Frame α) := s.taken ++ s.buf

inductive Step (s : Flow α) : Flow α → Prop where
  | create (phase : s.phase = .unopened) :
      Step s { s with phase := .opening, reader := true, buf := [], senders := 1 }
  | store (phase : s.phase = .opening) : Step s { s with phase := .idle, slot := true }
  | giveUp (phase : s.phase = .unopened) : Step s { s with phase := .idle }
  | start (a : α) (phase : s.phase = .idle) :
      Step s { s with phase := .starting a, given := s.given ++ [a] }
  | join (a : α) (phase : s.phase = .starting a) (present : s.slot = true) :
      Step s { s with phase := .checking a, senders := s.senders + 1 }
  | refused (a : α) (phase : s.phase = .starting a) (missing : s.slot = false) :
      Step s { s with phase := .idle }
  | halted (a : α) (phase : s.phase = .checking a) (stopped : s.stopped = true) :
      Step s { s with phase := .idle, senders := s.senders - 1 }
  | pass (a : α) (phase : s.phase = .checking a) (going : s.stopped = false) :
      Step s { s with phase := .attempting a }
  | tick (a : α) (phase : s.phase = .attempting a) : Step s { s with phase := .checking a }
  | send (a : α) (phase : s.phase = .attempting a) (reader : s.reader = true) :
      Step s { s with
        phase := .idle
        buf := s.buf ++ [.data a]
        senders := s.senders - 1
        accepted := s.accepted ++ [a] }
  | void (a : α) (phase : s.phase = .attempting a) (gone : s.reader = false) :
      Step s { s with phase := .idle, senders := s.senders - 1, accepted := s.accepted ++ [a] }
  | finish (phase : s.phase = .idle) (present : s.slot = true) :
      Step s { s with slot := false, senders := s.senders - 1, emptied := some .ended }
  | cut (present : s.slot = true) :
      Step s { s with slot := false, cutting := true, emptied := some .cut }
  | cutSent (cutting : s.cutting = true) (reader : s.reader = true) :
      Step s { s with cutting := false, buf := s.buf ++ [.cut], senders := s.senders - 1 }
  | cutLost (cutting : s.cutting = true) (gone : s.reader = false) :
      Step s { s with cutting := false, senders := s.senders - 1 }
  | receive (f : Frame α) (rest : List (Frame α)) (front : s.buf = f :: rest) :
      Step s { s with buf := rest, taken := s.taken ++ [f] }
  | leave : Step s { s with reader := false }
  | stop : Step s { s with stopped := true }

def Phase.pending : Phase α → List α
  | .starting a | .checking a | .attempting a => [a]
  | .unopened | .opening | .idle => []

def Phase.holds : Phase α → Nat
  | .opening | .checking _ | .attempting _ => 1
  | .unopened | .idle | .starting _ => 0

def Shut (s : Flow α) : Prop :=
  match s.phase with
  | .unopened | .opening | .attempting _ => False
  | .idle | .starting _ => s.stopped = true ∨ s.slot = false
  | .checking _ => s.stopped = true

structure Sound (s : Flow α) : Prop where
  senders : s.senders = s.slot.toNat + s.cutting.toNat + s.phase.holds
  calls : s.given = s.accepted ++ s.phase.pending ∨ s.accepted <+: s.given ∧ Shut s
  delivered : payloads s.out <+: s.accepted
  whole : s.reader = true → payloads s.out = s.accepted
  early : s.phase = .unopened ∨ s.phase = .opening →
    s.slot = false ∧ s.cutting = false ∧ s.emptied = none ∧ s.given = []
  absent : s.phase = .unopened → s.reader = false
  kept : s.slot = true → s.emptied = none
  lost : s.reader = true → s.phase ≠ .opening → s.slot = false → s.emptied ≠ none
  cutting : s.cutting = true → s.emptied = some .cut
  cut : s.emptied = some .cut → s.cutting = true ∨ .cut ∈ s.out ∨ s.reader = false
  only : .cut ∈ s.out → s.emptied = some .cut

theorem accepted_given {s : Flow α} (sound : Sound s) : s.accepted <+: s.given := by
  rcases sound.calls with same | ⟨behind, _⟩
  · rw [same]
    exact List.prefix_append _ _
  · exact behind

theorem taken_given {s : Flow α} (sound : Sound s) : payloads s.taken <+: s.given := by
  have delivered := sound.delivered
  rw [Flow.out, payloads_append] at delivered
  exact ((List.prefix_append _ _).trans delivered).trans (accepted_given sound)

def SeesEnd (s : Flow α) : Prop := s.reader = true ∧ s.buf = [] ∧ s.senders = 0

theorem seesEnd_emptied {s : Flow α} (sound : Sound s) (sees : SeesEnd s) :
    s.slot = false ∧ s.cutting = false ∧ s.emptied ≠ none := by
  obtain ⟨reader, _, none_left⟩ := sees
  have senders := sound.senders
  rw [none_left] at senders
  have no_slot : s.slot = false := by
    cases slot : s.slot with
    | true => simp only [slot, Bool.toNat_true] at senders; omega
    | false => rfl
  have no_cutting : s.cutting = false := by
    cases cutting : s.cutting with
    | true => simp only [cutting, Bool.toNat_true] at senders; omega
    | false => rfl
  refine ⟨no_slot, no_cutting, sound.lost reader ?_ no_slot⟩
  intro opening
  simp only [opening, Phase.holds] at senders
  omega

/-- A clean end: the slot was ended, and everything a call succeeded with was taken. -/
theorem clean_end {s : Flow α} (sound : Sound s) (sees : SeesEnd s) (clean : .cut ∉ s.taken) :
    s.emptied = some .ended ∧ payloads s.taken = s.accepted := by
  obtain ⟨_, no_cutting, emptied⟩ := seesEnd_emptied sound sees
  obtain ⟨reader, drained, _⟩ := sees
  have out : s.out = s.taken := by simp [Flow.out, drained]
  constructor
  · cases how : s.emptied with
    | none => exact absurd how emptied
    | some e =>
      cases e with
      | ended => rfl
      | cut =>
        rcases sound.cut how with cutting | here | gone
        · rw [no_cutting] at cutting
          cases cutting
        · rw [out] at here
          exact absurd here clean
        · rw [reader] at gone
          cases gone
  · rw [← out]
    exact sound.whole reader

theorem step_senders {s t : Flow α} (sound : Sound s) (step : Step s t) :
    t.senders = t.slot.toNat + t.cutting.toNat + t.phase.holds := by
  have senders := sound.senders
  cases step with
  | create phase =>
    obtain ⟨slot, cutting, _⟩ := sound.early (.inl phase)
    simp [slot, cutting, Phase.holds]
  | store phase =>
    obtain ⟨slot, cutting, _⟩ := sound.early (.inr phase)
    simp only [phase, slot, cutting, Phase.holds, Bool.toNat_false, Bool.toNat_true] at senders ⊢
    omega
  | giveUp phase | start _ phase | refused _ phase | pass _ phase | tick _ phase =>
    simpa only [phase, Phase.holds] using senders
  | join a phase | halted a phase | send a phase | void a phase =>
    simp only [phase, Phase.holds] at senders ⊢
    omega
  | finish phase present =>
    simp only [present, Bool.toNat_true, Bool.toNat_false] at senders ⊢
    omega
  | cut present =>
    have idle : s.cutting = false := by
      cases cutting : s.cutting with
      | true =>
        have emptied := sound.cutting cutting
        rw [sound.kept present] at emptied
        cases emptied
      | false => rfl
    simp only [present, idle, Bool.toNat_true, Bool.toNat_false] at senders ⊢
    omega
  | cutSent cutting | cutLost cutting =>
    simp only [cutting, Bool.toNat_true, Bool.toNat_false] at senders ⊢
    omega
  | receive | leave | stop => exact senders

theorem step_calls {s t : Flow α} (sound : Sound s) (step : Step s t) :
    t.given = t.accepted ++ t.phase.pending ∨ t.accepted <+: t.given ∧ Shut t := by
  have calls := sound.calls
  have behind := accepted_given sound
  cases step with
  | create phase | store phase | giveUp phase | tick _ phase =>
    left
    simpa [phase, Phase.pending, Shut] using calls
  | start a phase =>
    rcases calls with same | ⟨behind, shut⟩
    · left
      simp [same, phase, Phase.pending]
    · right
      simp only [Shut, phase] at shut ⊢
      exact ⟨behind.trans (List.prefix_append _ _), shut⟩
  | join a phase present =>
    rcases calls with same | ⟨behind, shut⟩
    · left
      simpa [phase, Phase.pending] using same
    · right
      simp only [Shut, phase, present, Bool.true_eq_false, or_false] at shut ⊢
      exact ⟨behind, shut⟩
  | refused a phase missing => exact .inr ⟨behind, .inr missing⟩
  | halted a phase stopped => exact .inr ⟨behind, .inl stopped⟩
  | pass a phase going =>
    left
    simpa [phase, Phase.pending, Shut, going] using calls
  | send a phase | void a phase =>
    left
    simpa [phase, Phase.pending, Shut] using calls
  | finish phase present =>
    apply calls.imp_right
    rintro ⟨behind, shut⟩
    simp only [Shut, phase] at shut ⊢
    exact ⟨behind, .inr trivial⟩
  | cut present =>
    apply calls.imp_right
    rintro ⟨behind, shut⟩
    refine ⟨behind, ?_⟩
    simp only [Shut] at shut ⊢
    cases phase : s.phase with
    | unopened | opening | attempting => simp [phase] at shut
    | idle | starting => simp
    | checking => simpa [phase] using shut
  | cutSent | cutLost | receive | leave => exact calls
  | stop =>
    apply calls.imp_right
    rintro ⟨behind, shut⟩
    refine ⟨behind, ?_⟩
    simp only [Shut] at shut ⊢
    cases phase : s.phase with
    | unopened | opening | attempting => simp [phase] at shut
    | idle | starting | checking => simp

theorem delivered_same {s t : Flow α} (sound : Sound s) (out : payloads t.out = payloads s.out)
    (accepted : t.accepted = s.accepted) (reader : t.reader = true → s.reader = true) :
    payloads t.out <+: t.accepted ∧ (t.reader = true → payloads t.out = t.accepted) := by
  rw [out, accepted]
  exact ⟨sound.delivered, fun alive => sound.whole (reader alive)⟩

theorem step_delivered {s t : Flow α} (sound : Sound s) (step : Step s t) :
    payloads t.out <+: t.accepted ∧ (t.reader = true → payloads t.out = t.accepted) := by
  cases step with
  | create phase =>
    obtain ⟨_, _, _, given⟩ := sound.early (.inl phase)
    have accepted := accepted_given sound
    rw [given, List.prefix_nil] at accepted
    have out := sound.delivered
    rw [accepted, List.prefix_nil, Flow.out, payloads_append, List.append_eq_nil_iff] at out
    simp [Flow.out, out.1, accepted]
  | store | giveUp | start | join | refused | halted | pass | tick | finish | cut | cutLost | stop =>
    apply delivered_same sound
    · rfl
    · rfl
    · exact id
  | send a phase reader =>
    have whole := sound.whole reader
    have out : payloads (s.taken ++ (s.buf ++ [Frame.data a])) = s.accepted ++ [a] := by
      rw [← List.append_assoc, payloads_append, ← whole]
      rfl
    constructor
    · change payloads (s.taken ++ (s.buf ++ [Frame.data a])) <+: _
      rw [out]
    · intro _
      exact out
  | void a phase gone =>
    constructor
    · exact sound.delivered.trans (List.prefix_append _ _)
    · intro alive
      change s.reader = true at alive
      rw [gone] at alive
      cases alive
  | cutSent cutting reader =>
    apply delivered_same sound
    · change payloads (s.taken ++ (s.buf ++ [Frame.cut])) = _
      rw [← List.append_assoc, payloads_append]
      simp [payloads, Flow.out]
    · rfl
    · exact id
  | receive f rest front =>
    apply delivered_same sound
    · simp [Flow.out, front]
    · rfl
    · exact id
  | leave =>
    apply delivered_same sound
    · rfl
    · rfl
    · intro alive
      cases alive

theorem step_early {s t : Flow α} (sound : Sound s) (step : Step s t) :
    (t.phase = .unopened ∨ t.phase = .opening →
      t.slot = false ∧ t.cutting = false ∧ t.emptied = none ∧ t.given = []) ∧
    (t.phase = .unopened → t.reader = false) := by
  have early := sound.early
  have absent := sound.absent
  cases step with
  | create phase =>
    constructor
    · intro _
      exact early (.inl phase)
    · intro other
      cases other
  | store | giveUp | start | join | refused | halted | pass | tick | send | void =>
    simp
  | finish phase present => simp [phase]
  | cut present =>
    have later : ¬(s.phase = .unopened ∨ s.phase = .opening) := by
      intro phase
      have slot := (early phase).1
      rw [present] at slot
      cases slot
    exact ⟨fun phase => absurd phase later, fun phase => absurd (.inl phase) later⟩
  | cutSent cutting reader =>
    constructor
    · intro phase
      have idle := (early phase).2.1
      rw [cutting] at idle
      cases idle
    · exact absent
  | cutLost cutting gone =>
    constructor
    · intro phase
      have idle := (early phase).2.1
      rw [cutting] at idle
      cases idle
    · exact absent
  | receive | stop => exact ⟨early, absent⟩
  | leave => exact ⟨early, fun _ => rfl⟩

theorem step_slot {s t : Flow α} (sound : Sound s) (step : Step s t) :
    (t.slot = true → t.emptied = none) ∧
    (t.reader = true → t.phase ≠ .opening → t.slot = false → t.emptied ≠ none) ∧
    (t.cutting = true → t.emptied = some .cut) ∧
    (t.emptied = some .cut → t.cutting = true ∨ .cut ∈ t.out ∨ t.reader = false) ∧
    (.cut ∈ t.out → t.emptied = some .cut) := by
  obtain ⟨_, _, _, _, early, absent, kept, lost, cutting, cut, only⟩ := sound
  unfold Flow.out at cut only ⊢
  cases step with
  | create phase =>
    obtain ⟨slot, idle, emptied, _⟩ := early (.inl phase)
    simp_all
  | store phase =>
    obtain ⟨slot, idle, emptied, _⟩ := early (.inr phase)
    simp_all
  | giveUp phase => simp_all
  | start _ phase | join _ phase | refused _ phase | halted _ phase | pass _ phase | tick _ phase
  | send _ phase | void _ phase => simp_all
  | finish phase present => simp_all
  | cut present => simp_all
  | cutSent now reader => simp_all
  | cutLost now gone => simp_all
  | receive f rest front => simp_all
  | leave => simp_all
  | stop => exact ⟨kept, lost, cutting, cut, only⟩

theorem step_sound {s t : Flow α} (sound : Sound s) (step : Step s t) : Sound t := by
  obtain ⟨delivered, whole⟩ := step_delivered sound step
  obtain ⟨early, absent⟩ := step_early sound step
  obtain ⟨kept, lost, cutting, cut, only⟩ := step_slot sound step
  constructor
  · exact step_senders sound step
  · exact step_calls sound step
  · exact delivered
  · exact whole
  · exact early
  · exact absent
  · exact kept
  · exact lost
  · exact cutting
  · exact cut
  · exact only

end StreamFlow
