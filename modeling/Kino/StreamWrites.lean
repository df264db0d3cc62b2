import Kino.StreamFlow
import Kino.Backstop

/-!
`write_chunk` (ext/kino/src/request.rs) over the responder: the app's thread sends the head,
then writes chunks one call after another, finishes or aborts; aborts and drops of the request
come from any thread, hyper takes the frames, and the flag of the worker's slot
(ext/kino/src/gvl.rs) may go up at any time. It does not come down while the request is served.
-/
namespace KinoStreamWrites
open Transitions Channels KinoResponder KinoResponseRace KinoBackstop
variable {H B : Type}

inductive Taker where
  | finish
  | abort
  deriving DecidableEq, Repr

/-- The app's thread. In `checking` it is about to read the flag, in `attempting` about to
    take the pending frame and send it; `panicked` is "frame consumed twice". -/
inductive App (B : Type) where
  | fresh
  | opening (t : Nat)
  | idle
  | cloning (t : Nat) (chunk : B)
  | checking (t : Nat) (pending : Option B)
  | attempting (t : Nat) (pending : Option B)
  | ending (t : Nat)
  | panicked
  deriving DecidableEq, Repr

def App.current : App B → Option Nat
  | .opening t | .cloning t _ | .checking t _ | .attempting t _ | .ending t => some t
  | .fresh | .idle | .panicked => none

/-- The last three fields are history: the chunks of the `write_chunk` calls, those of the
    calls that returned without error, and who took the sender out of `body_tx`. -/
structure State (H B : Type) where
  base : KinoResponder.State H B
  flag : Bool
  app : App B
  chunks : List B
  returned : List B
  took : Option Taker

def initial : State H B := ⟨KinoResponder.initial, false, .fresh, [], [], none⟩

inductive Label (H B : Type) where
  | sendHeaders (t : Nat) (builder : Option H)
  | writeChunk (t : Nat) (chunk : B)
  | finish (t : Nat)
  | abort (t : Nat)
  | app
  | interrupt
  | other (l : KinoResponder.Label H B)

/-- Who takes the sender when call `t` makes its next step. -/
def takes (s : KinoResponder.State H B) (t : Nat) : Option Taker :=
  if s.resp.bodyTx then
    match s.pc t with
    | .finishing => some .finish
    | .takeBody => some .abort
    | _ => none
  else none

def isDone : Pc H B → Bool
  | .done _ => true
  | _ => false

def isWriting : Pc H B → Bool
  | .writing _ => true
  | _ => false

def outside (s : State H B) : KinoResponder.Label H B → Bool
  | .call _ .respond500IfUnsent => true
  | .call _ _ => false
  | .step t => s.app.current ≠ some t
  | .interrupt _ => false
  | _ => true

def otherTakes (s : KinoResponder.State H B) : KinoResponder.Label H B → Option Taker
  | .step t => takes s t
  | _ => none

def advanceApp (ms : Nat) (s : State H B) : Option (State H B) :=
  match s.app with
  | .opening t => do
    let base ← advance s.base t
    pure { s with base := base, app := if isDone (base.pc t) then .idle else .opening t }
  | .cloning t chunk => do
    let base ← advance s.base t
    pure { s with
      base := base
      app := if isWriting (base.pc t) then .checking t (some chunk) else .idle }
  | .checking t pending =>
    if s.flag then do
      let base ← KinoResponder.step ms s.base (.interrupt t)
      pure { s with base := base, app := .idle }
    else some { s with app := .attempting t pending }
  | .attempting _ none => some { s with app := .panicked }
  | .attempting t (some chunk) => do
    let base ← advance s.base t
    if isWriting (base.pc t) then pure { s with base := base, app := .checking t (some chunk) }
    else pure { s with base := base, app := .idle, returned := s.returned ++ [chunk] }
  | .ending t => do
    let base ← advance s.base t
    pure { s with
      base := base
      app := if isDone (base.pc t) then .idle else .ending t
      took := s.took.or (takes s.base t) }
  | .fresh | .idle | .panicked => none

def step (ms : Nat) (s : State H B) : Label H B → Option (State H B)
  | .sendHeaders t builder =>
    match s.app with
    | .fresh => do
      let base ← KinoResponder.step ms s.base (.call t (.sendHeaders builder))
      pure { s with base := base, app := .opening t }
    | _ => none
  | .writeChunk t chunk =>
    match s.app with
    | .idle => do
      let base ← KinoResponder.step ms s.base (.call t (.writeChunk chunk))
      pure { s with base := base, app := .cloning t chunk, chunks := s.chunks ++ [chunk] }
    | _ => none
  | .finish t =>
    match s.app with
    | .idle => do
      let base ← KinoResponder.step ms s.base (.call t .finish)
      pure { s with base := base, app := .ending t }
    | _ => none
  | .abort t =>
    match s.app with
    | .fresh | .idle => do
      let base ← KinoResponder.step ms s.base (.call t .respond500IfUnsent)
      pure { s with base := base, app := .ending t }
    | _ => none
  | .app => advanceApp ms s
  | .interrupt => some { s with flag := true }
  | .other l =>
    if outside s l then do
      let base ← KinoResponder.step ms s.base l
      pure { s with base := base, took := s.took.or (otherTakes s.base l) }
    else none

def system (H B : Type) (ms : Nat) : System (State H B) (Label H B) :=
  ⟨fun s => s = initial, step ms⟩

/-! The abstract stream that a state stands for. -/

def frame : FrameResult B → StreamFlow.Frame B
  | .data chunk => .data chunk
  | .error _ => .cut

def Taker.ending : Taker → StreamFlow.Ending
  | .finish => .ended
  | .abort => .cut

def openingPhase : Pc H B → StreamFlow.Phase B
  | .storeBody _ => .opening
  | .sendStream _ => .idle
  | _ => .unopened

def phaseOf : App B → (Nat → Pc H B) → StreamFlow.Phase B
  | .fresh, _ => .unopened
  | .opening t, pc => openingPhase (pc t)
  | .cloning _ chunk, _ => .starting chunk
  | .checking _ (some chunk), _ => .checking chunk
  | .attempting _ (some chunk), _ => .attempting chunk
  | .idle, _ | .ending _, _ | .panicked, _ | .checking _ none, _ | .attempting _ none, _ => .idle

def phase (s : State H B) : StreamFlow.Phase B := phaseOf s.app s.base.pc

def view (p : StreamFlow.Phase B) (s : State H B) : StreamFlow.Flow B where
  reader := s.base.resp.frames.receiver
  buf := s.base.resp.frames.buf.map frame
  senders := s.base.resp.frames.senders
  slot := s.base.resp.bodyTx
  cutting := s.base.lock.isSome
  taken := s.base.taken.map frame
  stopped := s.flag
  phase := p
  given := s.chunks
  accepted := s.returned
  emptied := s.took.map Taker.ending

def flow (s : State H B) : StreamFlow.Flow B := view (phase s) s

def Follows (s t : StreamFlow.Flow B) : Prop := t = s ∨ StreamFlow.Step s t

def abortPc : Pc H B → Bool
  | .idle | .done _ | .swap .backstop | .takeHead .backstop | .holding .backstop | .takeBody
  | .sendErr => true
  | _ => false

def openPc : Pc H B → Bool
  | .swap (.streamHead _) | .takeHead (.streamHead _) | .holding (.streamHead _) | .storeBody _
  | .sendStream _ => true
  | _ => false

def AppPc : App B → (Nat → Pc H B) → Prop
  | .opening t, pc => openPc (pc t) = true
  | .cloning t chunk, pc => pc t = .cloneBody chunk
  | .checking t pending, pc | .attempting t pending, pc =>
    ∃ chunk, pending = some chunk ∧ pc t = .writing chunk
  | .ending t, pc => pc t ≠ .idle ∧ (pc t = .finishing ∨ abortPc (pc t) = true)
  | .fresh, _ | .idle, _ => True
  | .panicked, _ => False

structure Linked (s : State H B) : Prop where
  app : AppPc s.app s.base.pc
  others : ∀ t, s.app.current ≠ some t → abortPc (s.base.pc t) = true

theorem initial_linked : Linked (initial : State H B) := by
  constructor
  · trivial
  · intro t _
    rfl

theorem abort_view {s : State H B} {t : Nat} {base : KinoResponder.State H B}
    (locks : LockInv s.base) (free : s.base.resp.bodyTx = true → s.took = none)
    (role : abortPc (s.base.pc t) = true) (moved : Advance s.base t base)
    (p : StreamFlow.Phase B) :
    abortPc (base.pc t) = true ∧ Follows (view p s)
      (view p { s with base := base, took := s.took.or (takes s.base t) }) := by
  cases moved with
  | late c at_pc | first c at_pc | take c at_pc | noSender c at_pc =>
    cases c with
    | response | streamHead => simp [at_pc, abortPc] at role
    | backstop =>
      constructor
      · simp [abortPc, lost]
      · left
        simp [view, takes, at_pc]
  | canned at_pc =>
    constructor
    · simp [abortPc]
    · left
      simp [view, takes, at_pc]
  | noBody at_pc =>
    constructor
    · simp [abortPc]
    · left
      rename_i missing
      simp [view, takes, missing]
  | takeBody at_pc unlocked present =>
    constructor
    · simp [abortPc]
    · right
      have cut := StreamFlow.Step.cut (s := view p s) present
      simpa [view, takes, at_pc, present, free present, Taker.ending] using cut
  | abandon r at_pc sent =>
    have held : s.base.lock.isSome = true := by simp [(locks.owner t).mpr at_pc]
    constructor
    · simp [abortPc]
    · right
      unfold sendAbandoned at sent
      rcases Chan.trySend_cases s.base.resp.frames (abandonedFrame : FrameResult B) with
        ⟨gone, eq⟩ | ⟨alive, room, eq⟩ | ⟨_, eq⟩
      · simp only [eq, Option.some.injEq] at sent
        subst sent
        have lost := StreamFlow.Step.cutLost (s := view p s) held gone
        simpa [view, takes, at_pc, Chan.dropSender] using lost
      · simp only [eq, Option.some.injEq] at sent
        subst sent
        have sent := StreamFlow.Step.cutSent (s := view p s) held alive
        simpa [view, takes, at_pc, Chan.dropSender, Chan.push, frame, abandonedFrame] using sent
      · simp [eq] at sent
  | respond _ at_pc | reject at_pc | build _ at_pc | store _ at_pc | stream _ at_pc | clone _ at_pc
  | notOpen _ at_pc | tick _ at_pc | write _ at_pc | finish at_pc => simp [at_pc, abortPc] at role

theorem sendStream_view (s : State H B) (head : H) (heads : List (Nat × Response H))
    (pc : Nat → Pc H B) (app : App B) (p : StreamFlow.Phase B) :
    Follows (view p s) (view p { s with
      base := { s.base with resp := sendStream s.base.resp head, heads := heads, pc := pc }
      app := app }) := by
  unfold sendStream
  split
  · left
    rfl
  · right
    exact .leave

theorem dropHeadRx_view (s : State H B) (front : Front H) (took : Option Taker)
    (same : took = s.took) (p : StreamFlow.Phase B) :
    Follows (view p s) (view p { s with
      base := { s.base with front := front, resp := dropHeadRx s.base.resp }, took := took }) := by
  subst same
  unfold dropHeadRx
  split
  · right
    exact .leave
  · left
    rfl

theorem current_not_idle {app : App B} {pc : Nat → Pc H B} {t : Nat} (agree : AppPc app pc)
    (current : app.current = some t) : pc t ≠ .idle := by
  intro idle
  cases app with
  | fresh | idle | panicked => cases current
  | opening u =>
    cases current
    simp [AppPc, idle, openPc] at agree
  | cloning u chunk =>
    cases current
    simp [AppPc, idle] at agree
  | checking u pending | attempting u pending =>
    cases current
    simp [AppPc, idle] at agree
  | ending u =>
    cases current
    exact agree.1 idle

theorem appPc_congr {app : App B} {pc pc' : Nat → Pc H B} (agree : AppPc app pc)
    (same : ∀ t, app.current = some t → pc' t = pc t) : AppPc app pc' := by
  cases app with
  | fresh | idle => trivial
  | panicked => exact agree
  | opening u | cloning u _ | checking u _ | attempting u _ | ending u =>
    simp only [AppPc, same u rfl]
    exact agree

theorem phaseOf_congr {app : App B} {pc pc' : Nat → Pc H B}
    (same : ∀ t, app.current = some t → pc' t = pc t) : phaseOf app pc' = phaseOf app pc := by
  cases app with
  | fresh | idle | panicked | cloning | ending => rfl
  | opening u => simp only [phaseOf, same u rfl]
  | checking u pending | attempting u pending =>
    cases pending with
    | none => rfl
    | some chunk => rfl

theorem away_follows {s s' : State H B} {t : Nat} (linked : Linked s)
    (away : s.app.current ≠ some t) (app : s'.app = s.app)
    (pcs : ∀ u, u ≠ t → s'.base.pc u = s.base.pc u) (role : abortPc (s'.base.pc t) = true)
    (views : ∀ p, Follows (view p s) (view p s')) : Linked s' ∧ Follows (flow s) (flow s') := by
  have same : ∀ u, s.app.current = some u → s'.base.pc u = s.base.pc u := by
    intro u current
    apply pcs
    rintro rfl
    exact away current
  constructor
  · constructor
    · rw [app]
      exact appPc_congr linked.app same
    · intro u other
      by_cases mover : u = t
      · rw [mover]
        exact role
      · rw [pcs u mover]
        rw [app] at other
        exact linked.others u other
  · have unmoved : phase s' = phase s := by
      unfold phase
      rw [app]
      exact phaseOf_congr same
    unfold flow
    rw [unmoved]
    exact views _

theorem same_follows {s s' : State H B} (linked : Linked s) (app : s'.app = s.app)
    (pcs : s'.base.pc = s.base.pc) (views : ∀ p, Follows (view p s) (view p s')) :
    Linked s' ∧ Follows (flow s) (flow s') := by
  constructor
  · constructor
    · rw [app, pcs]
      exact linked.app
    · rw [app, pcs]
      exact linked.others
  · have unmoved : phase s' = phase s := by
      unfold phase
      rw [app, pcs]
    unfold flow
    rw [unmoved]
    exact views _

theorem other_follows {ms : Nat} {s s' : State H B} {l : KinoResponder.Label H B}
    (locks : LockInv s.base) (free : s.base.resp.bodyTx = true → s.took = none)
    (linked : Linked s) (moved : step ms s (.other l) = some s') :
    Linked s' ∧ Follows (flow s) (flow s') := by
  simp only [step] at moved
  split at moved
  · next away =>
    obtain ⟨base, based, kept⟩ := Option.bind_eq_some_iff.mp moved
    cases kept
    cases step_move based with
    | call t c idle =>
      have other : s.app.current ≠ some t := fun current =>
        current_not_idle linked.app current idle
      cases c with
      | respondSimple | sendHeaders | writeChunk | finish => simp [outside] at away
      | respond500IfUnsent =>
        apply away_follows linked other
        · rfl
        · intro u ne
          simp [ne]
        · simp [abortPc, Call.entry]
        · intro p
          left
          simp [view, otherTakes]
    | step t base moved =>
      have other : s.app.current ≠ some t := by simpa [outside] using away
      have aborted := fun p => abort_view locks free (linked.others t other) moved p
      apply away_follows linked other
      · rfl
      · intro u ne
        exact advance_other_pc ne moved
      · exact (aborted .idle).1
      · intro p
        exact (aborted p).2
    | interrupt => simp [outside] at away
    | dropCtx t idle =>
      have other : s.app.current ≠ some t := fun current =>
        current_not_idle linked.app current idle
      apply away_follows linked other
      · rfl
      · intro u ne
        simp [ne]
      · simp [abortPc]
      · intro p
        left
        simp [view, otherTakes]
    | pollHead | pollClosed =>
      apply same_follows linked
      · rfl
      · rfl
      · intro p
        left
        simp [view, otherTakes]
    | timeout | clientGone =>
      apply same_follows linked
      · rfl
      · rfl
      · intro p
        exact dropHeadRx_view s _ _ (by simp [otherTakes]) p
    | recvFrame head f rest streaming alive queued =>
      apply same_follows linked
      · rfl
      · rfl
      · intro p
        right
        have received := StreamFlow.Step.receive (s := view p s) (frame f) (rest.map frame)
          (by simp [view, queued])
        simpa [view, otherTakes, Chan.pop, queued] using received
    | dropStream =>
      apply same_follows linked
      · rfl
      · rfl
      · intro p
        right
        have left := StreamFlow.Step.leave (s := view p s)
        simpa [view, otherTakes, Chan.dropReceiver] using left
  · cases moved

theorem app_linked {s s' : State H B} {t : Nat} (linked : Linked s)
    (mine : ∀ u, s.app.current = some u → u = t) (pcs : ∀ u, u ≠ t → s'.base.pc u = s.base.pc u)
    (agree : AppPc s'.app s'.base.pc)
    (left : s'.app.current ≠ some t → abortPc (s'.base.pc t) = true) : Linked s' := by
  constructor
  · exact agree
  · intro u other
    by_cases mover : u = t
    · subst mover
      exact left other
    · rw [pcs u mover]
      apply linked.others u
      intro current
      exact mover (mine u current)

theorem entered_follows {ms t : Nat} {s : State H B} {c : Call H B} {base : KinoResponder.State H B}
    {app : App B} {chunks : List B} (linked : Linked s) (resting : s.app.current = none)
    (entered : KinoResponder.step ms s.base (.call t c) = some base) (current : app.current = some t)
    (agree : ∀ pc : Nat → Pc H B, pc t = c.entry → AppPc app pc)
    (follows : Follows (flow s) (view (phaseOf app fun _ => c.entry) { s with chunks := chunks })) :
    Linked { s with base := base, app := app, chunks := chunks } ∧
      Follows (flow s) (flow { s with base := base, app := app, chunks := chunks }) := by
  cases step_move entered with
  | call _ _ idle =>
    have at_entry : Function.update s.base.pc t c.entry t = c.entry := Function.update_self ..
    constructor
    · apply app_linked linked (t := t)
      · intro u other
        rw [resting] at other
        cases other
      · intro u ne
        simp [ne]
      · exact agree _ at_entry
      · intro away
        exact absurd current away
    · have phases : phaseOf app (Function.update s.base.pc t c.entry) =
          phaseOf app fun _ => c.entry := by
        apply phaseOf_congr
        intro u other
        rw [current] at other
        cases other
        exact at_entry
      simp only [flow, phase, State.goto, phases]
      exact follows

theorem enter_follows {ms : Nat} {s s' : State H B} {l : Label H B} (linked : Linked s)
    (entry : ∀ k, l ≠ .other k) (working : l ≠ .app) (moved : step ms s l = some s') :
    Linked s' ∧ Follows (flow s) (flow s') := by
  cases l with
  | other k => exact absurd rfl (entry k)
  | app => exact absurd rfl working
  | interrupt =>
    cases moved
    apply same_follows linked
    · rfl
    · rfl
    · intro p
      right
      exact .stop
  | sendHeaders t builder =>
    simp only [step] at moved
    split at moved
    · next at_app =>
      obtain ⟨base, entered, kept⟩ := Option.bind_eq_some_iff.mp moved
      cases kept
      apply entered_follows linked (by simp [at_app, App.current]) entered rfl
      · intro pc at_pc
        simp [AppPc, at_pc, openPc, Call.entry]
      · left
        simp [flow, view, phase, at_app, phaseOf, openingPhase, Call.entry]
    · cases moved
  | writeChunk t chunk =>
    simp only [step] at moved
    split at moved
    · next at_app =>
      obtain ⟨base, entered, kept⟩ := Option.bind_eq_some_iff.mp moved
      cases kept
      apply entered_follows linked (by simp [at_app, App.current]) entered rfl
      · intro pc at_pc
        exact at_pc
      · right
        exact StreamFlow.Step.start (s := flow s) chunk
          (by simp [flow, view, phase, at_app, phaseOf])
    · cases moved
  | finish t =>
    simp only [step] at moved
    split at moved
    · next at_app =>
      obtain ⟨base, entered, kept⟩ := Option.bind_eq_some_iff.mp moved
      cases kept
      apply entered_follows linked (by simp [at_app, App.current]) entered rfl
      · intro pc at_pc
        simp [AppPc, at_pc, Call.entry]
      · left
        simp [flow, view, phase, at_app, phaseOf]
    · cases moved
  | abort t =>
    simp only [step] at moved
    split at moved
    · next at_app =>
      obtain ⟨base, entered, kept⟩ := Option.bind_eq_some_iff.mp moved
      cases kept
      apply entered_follows linked (by simp [at_app, App.current]) entered rfl
      · intro pc at_pc
        simp [AppPc, at_pc, Call.entry, abortPc]
      · right
        exact StreamFlow.Step.giveUp (s := flow s)
          (by simp [flow, view, phase, at_app, phaseOf])
    · next at_app =>
      obtain ⟨base, entered, kept⟩ := Option.bind_eq_some_iff.mp moved
      cases kept
      apply entered_follows linked (by simp [at_app, App.current]) entered rfl
      · intro pc at_pc
        simp [AppPc, at_pc, Call.entry, abortPc]
      · left
        simp [flow, view, phase, at_app, phaseOf]
    · cases moved

theorem current_eq {app : App B} {t : Nat} (at_app : app.current = some t) (u : Nat)
    (current : app.current = some u) : u = t := by
  rw [at_app] at current
  exact (Option.some.inj current).symm

theorem returned_follows {s s' : State H B} {t : Nat} {r : Ret} (linked : Linked s)
    (current : s.app.current = some t) (app : s'.app = .idle)
    (pcs : ∀ u, u ≠ t → s'.base.pc u = s.base.pc u) (done : s'.base.pc t = .done r)
    (views : Follows (flow s) (view .idle s')) : Linked s' ∧ Follows (flow s) (flow s') := by
  constructor
  · apply app_linked linked (current_eq current) pcs
    · rw [app]
      trivial
    · intro _
      rw [done]
      rfl
  · have idle : phase s' = .idle := by simp [phase, phaseOf, app]
    unfold flow
    rw [idle]
    exact views

theorem working_follows {s s' : State H B} {t : Nat} (linked : Linked s)
    (current : s.app.current = some t) (still : s'.app.current = some t)
    (pcs : ∀ u, u ≠ t → s'.base.pc u = s.base.pc u) (agree : AppPc s'.app s'.base.pc)
    (follows : Follows (flow s) (flow s')) : Linked s' ∧ Follows (flow s) (flow s') := by
  constructor
  · apply app_linked linked (current_eq current) pcs agree
    intro away
    exact absurd still away
  · exact follows

theorem opening_follows {s : State H B} {t : Nat} {base : KinoResponder.State H B}
    (linked : Linked s) (at_app : s.app = .opening t) (moved : Advance s.base t base) :
    Linked { s with base := base, app := if isDone (base.pc t) then .idle else .opening t } ∧
      Follows (flow s)
        (flow { s with base := base, app := if isDone (base.pc t) then .idle else .opening t }) := by
  have agree := linked.app
  rw [at_app] at agree
  simp only [AppPc] at agree
  have current : s.app.current = some t := by simp [at_app, App.current]
  have pcs : ∀ u, u ≠ t → base.pc u = s.base.pc u := fun u ne => advance_other_pc ne moved
  have at_phase : phase s = openingPhase (s.base.pc t) := by simp [phase, phaseOf, at_app]
  have gaveUp : phase s = .unopened → StreamFlow.Step (flow s) (view .idle s) := fun unopened =>
    .giveUp (s := flow s) unopened
  cases moved with
  | late c at_pc | noSender c at_pc =>
    cases c with
    | response | backstop => simp [at_pc, openPc] at agree
    | streamHead builder =>
      apply returned_follows linked current
      · simp [lost, isDone]
      · exact pcs
      · simp [lost]
        rfl
      · right
        simpa [view] using gaveUp (by simp [at_phase, at_pc, openingPhase])
  | first c at_pc | take c at_pc =>
    cases c with
    | response | backstop => simp [at_pc, openPc] at agree
    | streamHead builder =>
      apply working_follows linked current
      · simp [isDone, App.current]
      · exact pcs
      · simp [isDone, AppPc, openPc]
      · left
        simp [flow, view, phase, phaseOf, isDone, at_app, at_pc, openingPhase]
  | reject at_pc =>
    apply returned_follows linked current
    · simp [isDone]
    · exact pcs
    · simp
      rfl
    · right
      simpa [view] using gaveUp (by simp [at_phase, at_pc, openingPhase])
  | build head at_pc =>
    apply working_follows linked current
    · simp [isDone, App.current]
    · exact pcs
    · simp [isDone, AppPc, openPc]
    · right
      have created := StreamFlow.Step.create (s := flow s)
        (by simp [flow, view, at_phase, at_pc, openingPhase])
      simpa [flow, view, phase, phaseOf, isDone, openingPhase, Chan.create] using created
  | store head at_pc =>
    apply working_follows linked current
    · simp [isDone, App.current]
    · exact pcs
    · simp [isDone, AppPc, openPc]
    · right
      have stored := StreamFlow.Step.store (s := flow s)
        (by simp [flow, view, at_phase, at_pc, openingPhase])
      simpa [flow, view, phase, phaseOf, isDone, openingPhase] using stored
  | stream head at_pc =>
    apply returned_follows linked current
    · simp [isDone]
    · exact pcs
    · simp
      rfl
    · have sent := sendStream_view s head (s.base.heads ++ [(t, Response.stream head)])
        (Function.update s.base.pc t (.done (.sent true))) .idle .idle
      have idle : phase s = .idle := by simp [at_phase, at_pc, openingPhase]
      unfold flow
      rw [idle]
      exact sent
  | respond _ at_pc | canned at_pc | takeBody at_pc | noBody at_pc | abandon _ at_pc | clone _ at_pc
  | notOpen _ at_pc | tick _ at_pc | write _ at_pc | finish at_pc => simp [at_pc, openPc] at agree

theorem cloning_follows {s : State H B} {t : Nat} {chunk : B} {base : KinoResponder.State H B}
    (linked : Linked s) (at_app : s.app = .cloning t chunk) (moved : Advance s.base t base) :
    Linked { s with
      base := base, app := if isWriting (base.pc t) then .checking t (some chunk) else .idle } ∧
      Follows (flow s) (flow { s with
        base := base, app := if isWriting (base.pc t) then .checking t (some chunk) else .idle }) := by
  have agree := linked.app
  rw [at_app] at agree
  simp only [AppPc] at agree
  have current : s.app.current = some t := by simp [at_app, App.current]
  have pcs : ∀ u, u ≠ t → base.pc u = s.base.pc u := fun u ne => advance_other_pc ne moved
  have starting : (flow s).phase = .starting chunk := by simp [flow, view, phase, phaseOf, at_app]
  cases moved with
  | clone d at_pc unlocked present =>
    rw [at_pc] at agree
    cases agree
    apply working_follows linked current
    · simp [isWriting, App.current]
    · exact pcs
    · simp [isWriting, AppPc]
    · right
      have joined := StreamFlow.Step.join (s := flow s) chunk starting present
      simpa [flow, view, phase, phaseOf, isWriting, Chan.cloneSender] using joined
  | notOpen d at_pc unlocked missing =>
    apply returned_follows linked current
    · simp [isWriting]
    · exact pcs
    · simp
      rfl
    · right
      exact .refused (s := flow s) chunk starting missing
  | late _ at_pc | first _ at_pc | take _ at_pc | noSender _ at_pc | respond _ at_pc | canned at_pc
  | reject at_pc | build _ at_pc | store _ at_pc | stream _ at_pc | takeBody at_pc | noBody at_pc
  | abandon _ at_pc | tick _ at_pc | write _ at_pc | finish at_pc => simp [at_pc] at agree

theorem checking_follows {ms : Nat} {s s' : State H B} {t : Nat} {pending : Option B}
    (linked : Linked s) (at_app : s.app = .checking t pending)
    (moved : step ms s .app = some s') : Linked s' ∧ Follows (flow s) (flow s') := by
  have agree := linked.app
  rw [at_app] at agree
  obtain ⟨chunk, rfl, at_pc⟩ := agree
  have current : s.app.current = some t := by simp [at_app, App.current]
  have checking : (flow s).phase = .checking chunk := by simp [flow, view, phase, phaseOf, at_app]
  simp only [step, advanceApp, at_app] at moved
  split at moved
  · next raised =>
    obtain ⟨base, based, kept⟩ := Option.bind_eq_some_iff.mp moved
    cases kept
    cases step_move based with
    | interrupt _ d writing =>
      apply returned_follows linked current
      · rfl
      · intro u ne
        simp [ne]
      · simp
        rfl
      · right
        exact .halted (s := flow s) chunk checking raised
  · next down =>
    cases moved
    apply working_follows linked current
    · rfl
    · intro u _
      rfl
    · exact ⟨chunk, rfl, at_pc⟩
    · right
      have passed := StreamFlow.Step.pass (s := flow s) chunk checking
        (by simpa [flow, view] using down)
      simpa [flow, view, phase, phaseOf] using passed

theorem attempting_follows {ms : Nat} {s s' : State H B} {t : Nat} {pending : Option B}
    (linked : Linked s) (at_app : s.app = .attempting t pending)
    (moved : step ms s .app = some s') : Linked s' ∧ Follows (flow s) (flow s') := by
  have agree := linked.app
  rw [at_app] at agree
  obtain ⟨chunk, rfl, at_pc⟩ := agree
  have current : s.app.current = some t := by simp [at_app, App.current]
  have attempting : (flow s).phase = .attempting chunk := by
    simp [flow, view, phase, phaseOf, at_app]
  simp only [step, advanceApp, at_app] at moved
  obtain ⟨base, based, kept⟩ := Option.bind_eq_some_iff.mp moved
  have advanced := advance_cases based
  have pcs : ∀ u, u ≠ t → base.pc u = s.base.pc u := fun u ne => advance_other_pc ne advanced
  cases advanced with
  | tick d at_d full =>
    simp only [at_pc, isWriting, if_true] at kept
    cases kept
    apply working_follows linked current
    · rfl
    · exact pcs
    · exact ⟨chunk, rfl, at_pc⟩
    · right
      have ticked := StreamFlow.Step.tick (s := flow s) chunk attempting
      simpa [flow, view, phase, phaseOf] using ticked
  | write d at_d room =>
    rw [at_pc] at at_d
    cases at_d
    simp only [goto_pc, if_true, isWriting, Bool.false_eq_true, if_false] at kept
    cases kept
    apply returned_follows linked current
    · rfl
    · exact pcs
    · simp
      rfl
    · right
      rcases Chan.trySend_cases s.base.resp.frames (FrameResult.data chunk) with
        ⟨gone, eq⟩ | ⟨alive, free, eq⟩ | ⟨blocks, _⟩
      · have lost := StreamFlow.Step.void (s := flow s) chunk attempting gone
        simpa [flow, view, eq, Chan.dropSender] using lost
      · have sent := StreamFlow.Step.send (s := flow s) chunk attempting alive
        simpa [flow, view, eq, Chan.dropSender, Chan.push, frame] using sent
      · exact absurd blocks room
  | late _ other | first _ other | take _ other | noSender _ other | respond _ other | canned other
  | reject other | build _ other | store _ other | stream _ other | takeBody other | noBody other
  | abandon _ other | clone _ other | notOpen _ other | finish other => simp [at_pc] at other

theorem advance_not_idle {s s' : KinoResponder.State H B} {t : Nat} (moved : Advance s t s') :
    s'.pc t ≠ .idle := by
  cases moved with
  | late c at_pc | noSender c at_pc =>
    cases c with
    | response | streamHead | backstop => simp [lost]
  | tick chunk at_pc full => simp [at_pc]
  | _ => simp

theorem ending_follows {ms : Nat} {s s' : State H B} {t : Nat} (locks : LockInv s.base)
    (free : s.base.resp.bodyTx = true → s.took = none) (linked : Linked s)
    (at_app : s.app = .ending t) (moved : step ms s .app = some s') :
    Linked s' ∧ Follows (flow s) (flow s') := by
  have agree := linked.app
  rw [at_app] at agree
  obtain ⟨_, role⟩ := agree
  have current : s.app.current = some t := by simp [at_app, App.current]
  have idle : phase s = .idle := by simp [phase, phaseOf, at_app]
  simp only [step, advanceApp, at_app] at moved
  obtain ⟨base, based, kept⟩ := Option.bind_eq_some_iff.mp moved
  cases kept
  have advanced := advance_cases based
  have pcs : ∀ u, u ≠ t → base.pc u = s.base.pc u := fun u ne => advance_other_pc ne advanced
  rcases role with finishing | aborting
  · cases advanced with
    | finish at_pc unlocked =>
      apply returned_follows linked current
      · simp [isDone]
      · exact pcs
      · simp
        rfl
      · cases present : s.base.resp.bodyTx with
        | true =>
          right
          have finished := StreamFlow.Step.finish (s := flow s) idle present
          simpa [flow, view, idle, takes, at_pc, present, free present, finishStream, Taker.ending,
            Chan.dropSender] using finished
        | false =>
          left
          simp [flow, view, idle, takes, present, finishStream]
    | late _ other | first _ other | take _ other | noSender _ other | respond _ other | canned other
    | reject other | build _ other | store _ other | stream _ other | takeBody other | noBody other
    | abandon _ other | clone _ other | notOpen _ other | tick _ other | write _ other =>
      simp [finishing] at other
  · obtain ⟨after, views⟩ := abort_view locks free aborting advanced .idle
    constructor
    · apply app_linked linked (current_eq current) pcs
      · split
        · trivial
        · exact ⟨advance_not_idle advanced, .inr after⟩
      · intro _
        exact after
    · unfold flow
      rw [idle]
      have idle_after : phase { s with
          base := base
          app := if isDone (base.pc t) then .idle else .ending t
          took := s.took.or (takes s.base t) } = .idle := by
        simp only [phase]
        split
        · rfl
        · rfl
      rw [idle_after]
      exact views

theorem step_follows {ms : Nat} {s s' : State H B} {l : Label H B} (locks : LockInv s.base)
    (free : s.base.resp.bodyTx = true → s.took = none) (linked : Linked s)
    (moved : step ms s l = some s') : Linked s' ∧ Follows (flow s) (flow s') := by
  cases l with
  | other l => exact other_follows locks free linked moved
  | sendHeaders | writeChunk | finish | abort | interrupt =>
    exact enter_follows linked (by simp) (by simp) moved
  | app =>
    cases at_app : s.app with
    | fresh | idle | panicked => simp [step, advanceApp, at_app] at moved
    | opening t =>
      simp only [step, advanceApp, at_app] at moved
      obtain ⟨base, based, kept⟩ := Option.bind_eq_some_iff.mp moved
      cases kept
      exact opening_follows linked at_app (advance_cases based)
    | cloning t chunk =>
      simp only [step, advanceApp, at_app] at moved
      obtain ⟨base, based, kept⟩ := Option.bind_eq_some_iff.mp moved
      cases kept
      exact cloning_follows linked at_app (advance_cases based)
    | checking t pending => exact checking_follows linked at_app moved
    | attempting t pending => exact attempting_follows linked at_app moved
    | ending t => exact ending_follows locks free linked at_app moved

theorem step_base {ms : Nat} {s s' : State H B} {l : Label H B} (moved : step ms s l = some s') :
    s'.base = s.base ∨ ∃ k, KinoResponder.step ms s.base k = some s'.base := by
  cases l with
  | sendHeaders | writeChunk | finish | abort =>
    simp only [step] at moved
    split at moved
    all_goals first
      | contradiction
      | obtain ⟨base, based, kept⟩ := Option.bind_eq_some_iff.mp moved
        cases kept
        exact .inr ⟨_, based⟩
  | interrupt =>
    cases moved
    exact .inl rfl
  | other l =>
    simp only [step] at moved
    split at moved
    · obtain ⟨base, based, kept⟩ := Option.bind_eq_some_iff.mp moved
      cases kept
      exact .inr ⟨l, based⟩
    · cases moved
  | app =>
    simp only [step, advanceApp] at moved
    split at moved
    · next t _ =>
      obtain ⟨base, based, kept⟩ := Option.bind_eq_some_iff.mp moved
      cases kept
      exact .inr ⟨.step t, based⟩
    · next t _ _ =>
      obtain ⟨base, based, kept⟩ := Option.bind_eq_some_iff.mp moved
      cases kept
      exact .inr ⟨.step t, based⟩
    · next t _ _ =>
      split at moved
      · obtain ⟨base, based, kept⟩ := Option.bind_eq_some_iff.mp moved
        cases kept
        exact .inr ⟨.interrupt t, based⟩
      · cases moved
        exact .inl rfl
    · cases moved
      exact .inl rfl
    · next t _ _ =>
      obtain ⟨base, based, kept⟩ := Option.bind_eq_some_iff.mp moved
      split at kept
      · cases kept
        exact .inr ⟨.step t, based⟩
      · cases kept
        exact .inr ⟨.step t, based⟩
    · next t _ =>
      obtain ⟨base, based, kept⟩ := Option.bind_eq_some_iff.mp moved
      cases kept
      exact .inr ⟨.step t, based⟩
    · cases moved
    · cases moved
    · cases moved

structure Invariant (ms : Nat) (s : State H B) : Prop where
  base : Reachable (KinoResponder.system H B ms) s.base
  linked : Linked s
  sound : StreamFlow.Sound (flow s)

theorem initial_sound : StreamFlow.Sound (flow (initial : State H B)) := by
  constructor
  · rfl
  · left
    rfl
  · exact List.nil_prefix
  · intro _
    rfl
  · intro _
    exact ⟨rfl, rfl, rfl, rfl⟩
  · intro _
    rfl
  · intro _
    rfl
  · intro reader
    cases reader
  · intro cutting
    cases cutting
  · intro cut
    cases cut
  · intro cut
    cases cut

theorem free_slot {s : State H B} (sound : StreamFlow.Sound (flow s))
    (present : s.base.resp.bodyTx = true) : s.took = none := by
  have emptied := sound.kept present
  simpa [flow, view] using emptied

theorem reachable_inv {ms : Nat} {s : State H B} (reached : Reachable (system H B ms) s) :
    Invariant ms s := by
  apply reachable_invariant (Invariant ms) ?_ ?_ reached
  · intro s start
    cases start
    exact ⟨.start rfl, initial_linked, initial_sound⟩
  · intro s s' l inv moved
    obtain ⟨linked, follows⟩ :=
      step_follows (reachable_lock_inv inv.base) (free_slot inv.sound) inv.linked moved
    constructor
    · rcases step_base moved with same | ⟨k, based⟩
      · rw [same]
        exact inv.base
      · exact reachable_step inv.base based
    · exact linked
    · rcases follows with same | stepped
      · rw [same]
        exact inv.sound
      · exact StreamFlow.step_sound inv.sound stepped

theorem recv_all (ms : Nat) {s : State H B} {head : H} (rest : List (FrameResult B))
    (queued : s.base.resp.frames.buf = rest) (streaming : s.base.front = .answered (.stream head))
    (alive : s.base.resp.frames.receiver = true) :
    ∃ s', run (system H B ms) s (List.replicate rest.length (.other .recvFrame)) = some s' ∧
      s'.base.taken = s.base.taken ++ rest ∧ s'.base.resp.frames.buf = [] ∧
      s'.base.resp.frames.receiver = true ∧ s'.base.front = .answered (.stream head) ∧
      s'.base.pc = s.base.pc ∧ s'.app = s.app := by
  induction rest generalizing s with
  | nil => exact ⟨s, rfl, by simp, queued, alive, streaming, rfl, rfl⟩
  | cons f rest ih =>
    have moved : step ms s (.other .recvFrame) = some { s with
        base := { s.base with
          resp.frames := s.base.resp.frames.pop, taken := s.base.taken ++ [f] }
        took := s.took.or none } := by
      simp [step, outside, KinoResponder.step, streaming, alive, queued, otherTakes]
    obtain ⟨s', ran, taken, others⟩ := ih (s := { s with
        base := { s.base with
          resp.frames := s.base.resp.frames.pop, taken := s.base.taken ++ [f] }
        took := s.took.or none }) (by simp [Chan.pop, queued]) streaming alive
    refine ⟨s', ?_, ?_, others⟩
    · exact run_cons.mpr ⟨_, moved, ran⟩
    · rw [taken]
      simp

theorem abandon_sends {s : KinoResponder.State H B} {t : Nat} (at_pc : s.pc t = .sendErr)
    (drained : s.resp.frames.buf = []) (alive : s.resp.frames.receiver = true) :
    ∃ s', advance s t = some s' ∧ s'.resp.frames.buf = [abandonedFrame] ∧
      s'.resp.frames.receiver = true ∧ s'.front = s.front := by
  rcases Chan.trySend_cases s.resp.frames (abandonedFrame : FrameResult B) with
    ⟨gone, _⟩ | ⟨_, room, eq⟩ | ⟨blocks, _⟩
  · rw [alive] at gone
    cases gone
  · refine ⟨_, by simp only [advance, at_pc, sendAbandoned, eq]; rfl, ?_, ?_, ?_⟩
    · simp [Chan.dropSender, Chan.push, drained]
    · simp [Chan.dropSender, Chan.push, alive]
    · simp
  · have full := blocks.2
    rw [drained] at full
    cases full

theorem sendErr_step (ms : Nat) {s : State H B} {t : Nat} {base : KinoResponder.State H B}
    (linked : Linked s) (at_pc : s.base.pc t = .sendErr) (moved : advance s.base t = some base) :
    ∃ l s', (l = .app ∨ l = .other (.step t)) ∧ step ms s l = some s' ∧ s'.base = base := by
  by_cases mine : s.app.current = some t
  · have agree := linked.app
    cases at_app : s.app with
    | fresh | idle | panicked => simp [at_app, App.current] at mine
    | opening u | cloning u chunk =>
      rw [at_app] at agree mine
      cases mine
      simp [AppPc, at_pc, openPc] at agree
    | checking u pending | attempting u pending =>
      rw [at_app] at agree mine
      cases mine
      simp [AppPc, at_pc] at agree
    | ending u =>
      rw [at_app] at mine
      cases mine
      exact ⟨.app, _, .inl rfl, by simp only [step, advanceApp, at_app, moved]; rfl, rfl⟩
  · have away : outside s (.step t) = true := by simp [outside, mine]
    have based : KinoResponder.step ms s.base (.step t) = some base := moved
    exact ⟨.other (.step t), _, .inr rfl, by simp only [step, away, if_true, based]; rfl, rfl⟩

def data (fs : List (FrameResult B)) : List B := StreamFlow.payloads (fs.map frame)

def SeesEnd (s : State H B) : Prop :=
  s.base.resp.frames.receiver = true ∧ s.base.resp.frames.buf = [] ∧ s.base.resp.frames.senders = 0

def HasError (fs : List (FrameResult B)) : Prop := ∃ m, .error m ∈ fs

theorem cut_error (fs : List (FrameResult B)) : .cut ∈ fs.map frame ↔ HasError fs := by
  rw [List.mem_map]
  constructor
  · rintro ⟨f, here, cut⟩
    cases f with
    | data chunk => cases cut
    | error m => exact ⟨m, here⟩
  · rintro ⟨m, here⟩
    exact ⟨.error m, here, rfl⟩

theorem out_error (s : State H B) :
    .cut ∈ (flow s).out ↔ HasError (s.base.taken ++ s.base.resp.frames.buf) := by
  rw [← cut_error, List.map_append]
  rfl

theorem abort_delivered {ms : Nat} {s : State H B} {head : H} (inv : Invariant ms s)
    (took : s.took = some .abort) (alive : s.base.resp.frames.receiver = true)
    (streaming : s.base.front = .answered (.stream head)) :
    ∃ ls s', run (system H B ms) s ls = some s' ∧ HasError s'.base.taken ∧
      ∀ l ∈ ls, l = .other .recvFrame ∨
        ∃ t, s.base.pc t = .sendErr ∧ (l = .app ∨ l = .other (.step t)) := by
  obtain ⟨s1, ran, taken, drained, alive1, streaming1, pcs, apps⟩ :=
    recv_all ms s.base.resp.frames.buf rfl streaming alive
  have takes_only : ∀ l ∈ List.replicate s.base.resp.frames.buf.length
      (.other .recvFrame : Label H B), l = .other .recvFrame := fun l here =>
    List.eq_of_mem_replicate here
  have emptied : (flow s).emptied = some .cut := by simp [flow, view, took, Taker.ending]
  rcases inv.sound.cut emptied with cutting | out | gone
  · obtain ⟨t, held⟩ := Option.isSome_iff_exists.mp cutting
    have at_pc := ((reachable_lock_inv inv.base).owner t).mp held
    have at_pc1 : s1.base.pc t = .sendErr := by rw [pcs, at_pc]
    have linked1 : Linked s1 := by
      constructor
      · rw [apps, pcs]
        exact inv.linked.app
      · rw [apps, pcs]
        exact inv.linked.others
    obtain ⟨base, moved, queued, alive2, front⟩ := abandon_sends at_pc1 drained alive1
    obtain ⟨l, s2, which, stepped, rfl⟩ := sendErr_step ms linked1 at_pc1 moved
    obtain ⟨s3, ran3, taken3, _⟩ :=
      recv_all ms [abandonedFrame] queued (front.trans streaming1) alive2
    refine ⟨List.replicate s.base.resp.frames.buf.length (.other .recvFrame) ++
      l :: List.replicate 1 (.other .recvFrame), s3, ?_, ?_, ?_⟩
    · rw [run_append ran]
      exact run_cons.mpr ⟨s2, stepped, ran3⟩
    · exact ⟨_, by rw [taken3, List.mem_append]; exact .inr (List.mem_singleton.mpr rfl)⟩
    · intro k here
      rcases List.mem_append.mp here with first | later
      · exact .inl (takes_only k first)
      · rcases List.mem_cons.mp later with rfl | last
        · exact .inr ⟨t, at_pc, which⟩
        · exact .inl (List.eq_of_mem_replicate last)
  · refine ⟨_, s1, ran, ?_, fun l here => .inl (takes_only l here)⟩
    rw [taken]
    exact (out_error s).mp out
  · change s.base.resp.frames.receiver = false at gone
    rw [alive] at gone
    cases gone

/-- What the receiver of a stream gets, whatever the app, the aborts and the client do. -/
theorem write_chunk_law {ms : Nat} {s : State H B} (reached : Reachable (system H B ms) s) :
    data s.base.taken <+: s.chunks ∧ s.returned <+: s.chunks ∧
    data (s.base.taken ++ s.base.resp.frames.buf) <+: s.returned ∧
    (SeesEnd s → ¬ HasError s.base.taken →
      s.took = some .finish ∧ data s.base.taken = s.returned) ∧
    (s.took = some .finish → ¬ HasError (s.base.taken ++ s.base.resp.frames.buf)) ∧
    (s.took = some .abort → SeesEnd s → HasError s.base.taken) ∧
    (∀ head, s.took = some .abort → s.base.resp.frames.receiver = true →
      s.base.front = .answered (.stream head) →
      ∃ ls s', run (system H B ms) s ls = some s' ∧ HasError s'.base.taken ∧
        ∀ l ∈ ls, l = .other .recvFrame ∨
          ∃ t, s.base.pc t = .sendErr ∧ (l = .app ∨ l = .other (.step t))) ∧
    s.app ≠ .panicked := by
  have inv := reachable_inv reached
  have clean : SeesEnd s → ¬ HasError s.base.taken →
      s.took = some .finish ∧ data s.base.taken = s.returned := by
    intro sees no_error
    obtain ⟨reader, drained, senders⟩ := sees
    have flow_sees : StreamFlow.SeesEnd (flow s) := ⟨reader, by simp [flow, view, drained], senders⟩
    obtain ⟨ended, whole⟩ := StreamFlow.clean_end inv.sound flow_sees
      (mt (cut_error s.base.taken).mp no_error)
    refine ⟨?_, whole⟩
    cases took : s.took with
    | none => simp [flow, view, took] at ended
    | some who =>
      cases who with
      | finish => rfl
      | abort => simp [flow, view, took, Taker.ending] at ended
  refine ⟨StreamFlow.taken_given inv.sound, StreamFlow.accepted_given inv.sound, ?_, clean, ?_, ?_,
    fun head => abort_delivered inv, ?_⟩
  · have delivered := inv.sound.delivered
    rw [data, List.map_append]
    exact delivered
  · intro finished errors
    have cut := inv.sound.only ((out_error s).mpr errors)
    simp [flow, view, finished, Taker.ending] at cut
  · intro aborted sees
    by_contra no_error
    rw [(clean sees no_error).1] at aborted
    cases aborted
  · intro panicked
    have agree := inv.linked.app
    rw [panicked] at agree
    exact agree

def abortedMidway : List (Label Nat Nat) :=
  Label.sendHeaders 0 (some 200) :: List.replicate 5 Label.app ++
    Label.writeChunk 1 7 :: List.replicate 3 Label.app ++
    [Label.other KinoResponder.Label.poll, Label.other KinoResponder.Label.recvFrame] ++
    Label.writeChunk 2 8 :: List.replicate 2 Label.app ++
    Label.other (KinoResponder.Label.call 9 Call.respond500IfUnsent) ::
      List.replicate 3 (Label.other (KinoResponder.Label.step 9)) ++
    Label.app :: List.replicate 2 (Label.other KinoResponder.Label.recvFrame)

def abortedMidwayState : State Nat Nat :=
  (run (system Nat Nat 0) initial abortedMidway).getD initial

theorem chunk_after_abort :
    abortedMidwayState.base.taken = [.data 7, abandonedFrame, .data 8] ∧
      data abortedMidwayState.base.taken <+: [7, 8] ∧ HasError abortedMidwayState.base.taken := by
  have ran : run (system Nat Nat 0) initial abortedMidway = some abortedMidwayState := rfl
  have law := write_chunk_law (reachable_run (.start rfl) ran)
  exact ⟨rfl, law.1, law.2.2.2.2.2.1 rfl ⟨rfl, rfl, rfl⟩⟩

end KinoStreamWrites
