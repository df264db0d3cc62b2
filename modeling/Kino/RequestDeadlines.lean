import Kino.RequestRecords

/-!
No request of a server with a request timeout is left hanging: whatever the workers and the
other requests do or fail to do, a call has its own way to a response, within the two
timeouts.
-/
namespace KinoRequestDeadlines
open Transitions Ownership Tallies KinoRequestLifecycle KinoRequestCounts
open KinoResponder (Responder Response respond500IfUnsent claim response500 response504)
open KinoRequestRecords (Times reachable_times)
variable {B : Type} {conf : Config} {s s' : State B}

theorem respond500_body {x y : Responder AppHead B} (answered : respond500IfUnsent x = some y)
    (open_ : y.bodyTx = true) : x.bodyTx = true := by
  have same : (claim x).2.bodyTx = x.bodyTx := by
    unfold claim
    split <;> rfl
  unfold respond500IfUnsent at answered
  split at answered
  · next z claimed =>
    cases answered
    rw [claimed] at same
    exact same ▸ open_
  · next z claimed =>
    rw [claimed] at same
    split at answered
    · next was => exact same ▸ was
    · cases answered
      exact same ▸ open_

theorem respond500_some {x : Responder AppHead B} (shut : x.bodyTx = false) :
    ∃ y, respond500IfUnsent x = some y := by
  have same : (claim x).2.bodyTx = x.bodyTx := by
    unfold claim
    split <;> rfl
  unfold respond500IfUnsent
  split
  · exact ⟨_, rfl⟩
  · next z claimed =>
    rw [claimed, shut] at same
    simp only at same
    rw [if_neg (by simp [same])]
    exact ⟨_, rfl⟩

def Streams (s : State B) : Prop :=
  ∀ (r : Nat) (c : Call B), s.calls[r]? = some c → c.responder.bodyTx = true → c.admitted = true

theorem put_streams {r : Nat} {c c' : Call B} (streams : Streams s) (there : s.calls[r]? = some c)
    (calls : s'.calls = s.calls.set r c') (admitted : c.admitted = true → c'.admitted = true)
    (body : c'.responder.bodyTx = true → c.responder.bodyTx = true) : Streams s' := by
  unfold Streams
  rw [calls]
  exact forall_set streams fun open_ => admitted (streams r c there (body open_))

theorem turn_streams {r : Nat} {c : Call B} (streams : Streams s) (there : s.calls[r]? = some c)
    (turn : Turn conf s r c s') : Streams s' := by
  cases turn with
  | arrival | completion => exact put_streams streams there (log_put_calls ..) id id
  | expire since x at_pc here late moved =>
    exact put_streams streams there rfl id (respond500_body moved)
  | laneRefused deadline x at_pc why moved =>
    exact put_streams streams there rfl id (respond500_body moved)
  | finishOwner response x at_pc here moved =>
    exact put_streams streams there rfl id (respond500_body moved)
  | cancelPending since x at_pc here moved =>
    exact put_streams streams there rfl id
      (respond500_body (x := KinoShutdown.hangUp c.responder) moved)
  | cancelSleeping deadline x at_pc moved =>
    exact put_streams streams there rfl id
      (respond500_body (x := KinoShutdown.hangUp c.responder) moved)
  | _ => exact put_streams streams there rfl id id

theorem step_streams {l : Label B} (place : PlaceInv s) (streams : Streams s)
    (moved : step conf s l = some s') : Streams s' := by
  cases step_move moved with
  | turn r c s' there turn => exact turn_streams streams there turn
  | around s' around =>
    cases around with
    | admitCtx i r rest c there => exact put_streams streams there rfl (fun _ => rfl) id
    | drop r c x p there here held answered =>
      exact put_streams streams there rfl id (respond500_body answered)
    | abort r c x there answered =>
      exact put_streams streams there rfl id (respond500_body answered)
    | use r i c op x there here used =>
      have placed := (place.each r c there).placed
      rw [located_mem place.located here] at placed
      exact forall_set streams fun _ => (placed_worker placed).2
    | takeFrame r c there => exact put_streams streams there rfl id id
    | _ => exact streams
  | arrive length => exact forall_join streams fun absurd => (nomatch absurd)
  | tick | close | slots => exact streams

theorem reachable_streams (reached : Reachable (system B conf) s) : Streams s :=
  (reachable_invariant (fun s => PlaceInv s ∧ Streams s)
    (by rintro s rfl; exact ⟨initial_place, fun _ _ there => (nomatch there)⟩)
    (fun _ _ _ inv moved => ⟨step_place inv.1 moved, step_streams inv.1 inv.2 moved⟩) reached).2

/-- The sleep between two tries of a dispatch. -/
def retry : Nat := 500000

/-- A try of a dispatch can leave its context in lane `i`. -/
def room (s : State B) (i : Nat) : Bool :=
  s.slots[i]?.any fun slot =>
    slot.laneTx && !slot.retired && decide ((s.contents (.lane i)).length < laneDepth)

/-- What `try_dispatch` finds with nothing else under way: it tries every lane before
    it says `Full`. -/
def full (s : State B) : Bool :=
  (s.slots.isEmpty || s.slots.any (·.laneTx)) &&
    (List.range s.slots.length).all fun i => !room s i

def own (r : Nat) (s : State B) : Label B → Bool
  | .tick _ => true
  | .advance j | .expire j | .laneSend j _ | .laneClosed j | .timeOut j => j = r
  | .laneFull j => j = r && full s
  | _ => false

/-- On its own, the call comes to a response before the clock is past `bound`. -/
def Returns (conf : Config) (bound : Nat) (s : State B) (r : Nat) : Prop :=
  ∃ ls t c response, runBy (system B conf) (own r) s ls = some t ∧
    t.calls[r]? = some c ∧ c.phase = .returned response ∧ t.now ≤ bound

theorem returns_step {bound r : Nat} {l : Label B} (reached : Reachable (system B conf) s)
    (mine : own r s l = true) (moved : step conf s l = some s')
    (rest : Reachable (system B conf) s' → Returns conf bound s' r) : Returns conf bound s r := by
  obtain ⟨ls, t, c, response, ran, there, at_pc, within⟩ :=
    rest (reachable_step (m := system B conf) reached moved)
  exact ⟨l :: ls, t, c, response, runBy_cons.mpr ⟨mine, s', moved, ran⟩, there, at_pc, within⟩

section Stages
variable {bound r : Nat} {c : Call B}

theorem put_there {c' : Call B} (there : s.calls[r]? = some c) :
    (s.calls.set r c')[r]? = some c' :=
  List.getElem?_set_self (List.getElem?_eq_some_iff.mp there).1

theorem drop_some {p : Place} (streams : Streams s) (there : s.calls[r]? = some c)
    (fresh : c.admitted = false) (t : State B) (phase : Phase) :
    ∃ x, dropCtx t r { c with phase := phase } p =
      some ((t.forget r p).put r { c with phase := phase, responder := x }) := by
  have shut : c.responder.bodyTx = false := by
    by_contra open_
    have := streams r c there (by simpa using open_)
    rw [fresh] at this
    cases this
  obtain ⟨x, answered⟩ := respond500_some shut
  exact ⟨x, by unfold dropCtx; rw [answered]; rfl⟩

theorem advance_step (there : s.calls[r]? = some c) (moved : advance conf s r c = some s') :
    step conf s (.advance r) = some s' := by
  simp only [step, there, Option.bind_some]
  exact moved

theorem returns_closing {response : Response AppHead} (reached : Reachable (system B conf) s)
    (there : s.calls[r]? = some c) (at_pc : c.phase = .closing response) (within : s.now ≤ bound) :
    Returns conf bound s r := by
  by_cases here : r ∈ s.contents .future
  · have place := reachable_place reached
    have placed := (place.each r c there).placed
    rw [located_mem place.located here] at placed
    obtain ⟨x, dropped⟩ := drop_some (p := .future) (reachable_streams reached) there
      (placed_keeps placed at_pc).1 (dropInFlight s) (.returned response)
    have moved : advance conf s r c = some (((dropInFlight s).forget r .future).put r
        { c with phase := .returned response, responder := x }) := by
      unfold advance
      rw [at_pc]
      simp only
      rw [if_pos here]
      exact dropped
    exact ⟨[.advance r], _, _, response,
      runBy_cons.mpr ⟨by simp [own], _, advance_step there moved, rfl⟩, put_there there, rfl,
      within⟩
  · have moved : advance conf s r c =
        some ((dropInFlight s).put r { c with phase := .returned response }) := by
      unfold advance
      rw [at_pc]
      simp only
      rw [if_neg here]
    exact ⟨[.advance r], _, _, response,
      runBy_cons.mpr ⟨by simp [own], _, advance_step there moved, rfl⟩, put_there there, rfl,
      within⟩

theorem returns_answered {response : Response AppHead} (reached : Reachable (system B conf) s)
    (there : s.calls[r]? = some c) (at_pc : c.phase = .answered response) (within : s.now ≤ bound) :
    Returns conf bound s r := by
  have moved : advance conf s r c =
      some ((s.log conf (.completion r (status response) (s.now - c.start) (timing response))).put r
        { c with phase := .closing response }) := by
    unfold advance
    rw [at_pc]
  refine returns_step reached (by simp [own]) (advance_step there moved) fun reached =>
    returns_closing (c := { c with phase := .closing response }) reached ?_ rfl ?_
  · rw [log_put_calls]
    exact put_there there
  · simpa [State.put] using within

theorem returns_due {since : Nat} (limited : 0 < conf.requestTimeout)
    (reached : Reachable (system B conf) s) (there : s.calls[r]? = some c)
    (at_pc : c.phase = .waiting since) (late : since + millis conf.requestTimeout ≤ s.now)
    (within : s.now ≤ bound) : Returns conf bound s r := by
  by_cases silent : c.responder.head.value = none ∧ c.responder.head.sender = true
  · have moved : step conf s (.timeOut r) = some ({ s with timeouts := s.timeouts + 1 }.put r
        { hangUp c with phase := .answered response504 }) := by
      simp only [step, there, Option.bind_some]
      unfold timeOut
      rw [at_pc]
      simp only
      rw [if_pos ⟨limited, late, silent.1, silent.2⟩]
    exact returns_step reached (by simp [own]) moved fun reached =>
      returns_answered reached (put_there there) rfl within
  · obtain ⟨response, moved⟩ : ∃ response, advance conf s r c =
        some (s.put r { consume c with phase := .answered response }) := by
      unfold advance
      rw [at_pc]
      simp only
      cases value : c.responder.head.value with
      | some response => exact ⟨response, rfl⟩
      | none =>
        refine ⟨response500, ?_⟩
        rw [if_neg fun waits => silent ⟨value, waits⟩]
    exact returns_step reached (by simp [own]) (advance_step there moved) fun reached =>
      returns_answered reached (put_there there) rfl within

theorem returns_waiting {since : Nat} (limited : 0 < conf.requestTimeout)
    (reached : Reachable (system B conf) s) (there : s.calls[r]? = some c)
    (at_pc : c.phase = .waiting since) (within : s.now + millis conf.requestTimeout ≤ bound) :
    Returns conf bound s r := by
  have begun := (reachable_times reached r c there).1.since since (.inr (.inr at_pc))
  refine returns_step (l := .tick (since + millis conf.requestTimeout - s.now)) reached rfl rfl
    fun reached => returns_due limited reached there at_pc ?_ ?_
  · change since + millis conf.requestTimeout ≤ s.now + _
    omega
  · change s.now + _ ≤ bound
    omega

theorem returns_enqueued (limited : 0 < conf.requestTimeout)
    (reached : Reachable (system B conf) s) (there : s.calls[r]? = some c)
    (at_pc : c.phase = .enqueued) (within : s.now + millis conf.requestTimeout ≤ bound) :
    Returns conf bound s r := by
  have moved : advance conf s r c = some (s.put r { c with phase := .waiting s.now }) := by
    unfold advance
    rw [at_pc]
  exact returns_step reached (by simp [own]) (advance_step there moved) fun reached =>
    returns_waiting limited reached (put_there there) rfl within

theorem returns_pulled {since : Nat} (limited : 0 < conf.requestTimeout)
    (reached : Reachable (system B conf) s) (there : s.calls[r]? = some c)
    (at_pc : c.phase = .pending since) (gone : r ∉ s.contents .pending)
    (within : s.now + millis conf.requestTimeout ≤ bound) : Returns conf bound s r := by
  have moved : advance conf s r c = some ((dropSender s).put r { c with phase := .enqueued }) := by
    unfold advance
    rw [at_pc]
    simp only
    rw [if_neg gone]
  exact returns_step reached (by simp [own]) (advance_step there moved) fun reached =>
    returns_enqueued limited reached (put_there there) rfl within

theorem returns_expired {since : Nat} (reached : Reachable (system B conf) s)
    (there : s.calls[r]? = some c) (at_pc : c.phase = .pending since)
    (here : r ∈ s.contents .pending) (late : since + millis conf.queueTimeout ≤ s.now)
    (within : s.now ≤ bound) : Returns conf bound s r := by
  have place := reachable_place reached
  have placed := (place.each r c there).placed
  rw [at_pc] at placed
  obtain ⟨x, dropped⟩ := drop_some (p := .pending) (reachable_streams reached) there
    (placed_pending placed (located_mem place.located here)) (unavailable (dropSender s))
    (.answered response503)
  have moved : step conf s (.expire r) = some (((unavailable (dropSender s)).forget r .pending).put r
      { c with phase := .answered response503, responder := x }) := by
    simp only [step, there, Option.bind_some]
    unfold expire
    rw [at_pc]
    simp only
    rw [if_pos ⟨here, late⟩]
    exact dropped
  exact returns_step reached (by simp [own]) moved fun reached =>
    returns_answered reached (put_there there) rfl within

theorem returns_pending {since : Nat} (limited : 0 < conf.requestTimeout)
    (reached : Reachable (system B conf) s) (there : s.calls[r]? = some c)
    (at_pc : c.phase = .pending since)
    (within : s.now + millis conf.queueTimeout + millis conf.requestTimeout ≤ bound) :
    Returns conf bound s r := by
  by_cases here : r ∈ s.contents .pending
  · have begun := (reachable_times reached r c there).1.since since (.inr (.inl at_pc))
    refine returns_step (l := .tick (since + millis conf.queueTimeout - s.now)) reached rfl rfl
      fun reached => returns_expired reached there at_pc here ?_ ?_
    · change since + millis conf.queueTimeout ≤ s.now + _
      omega
    · change s.now + _ ≤ bound
      omega
  · exact returns_pulled limited reached there at_pc here (by omega)

theorem returns_refused {deadline : Nat} {l : Label B} (reached : Reachable (system B conf) s)
    (there : s.calls[r]? = some c) (at_pc : c.phase = .dispatching deadline)
    (mine : own r s l = true) (refuses : step conf s l =
      dropCtx (unavailable s) r { c with phase := .answered response503 } .future)
    (within : s.now ≤ bound) : Returns conf bound s r := by
  have owned := placed_owned ((reachable_place reached).each r c there).placed (by rw [at_pc]; rfl)
  obtain ⟨x, dropped⟩ := drop_some (p := .future) (reachable_streams reached) there owned.2
    (unavailable s) (.answered response503)
  exact returns_step reached mine (refuses.trans dropped) fun reached =>
    returns_answered reached (put_there there) rfl within

theorem returns_sent {deadline i : Nat} (limited : 0 < conf.requestTimeout)
    (reached : Reachable (system B conf) s) (there : s.calls[r]? = some c)
    (at_pc : c.phase = .dispatching deadline) (takes : room s i = true)
    (within : s.now + millis conf.requestTimeout ≤ bound) : Returns conf bound s r := by
  unfold room at takes
  cases found : s.slots[i]? with
  | none => simp [found] at takes
  | some slot =>
    simp only [found, Option.any_some, Bool.and_eq_true, Bool.not_eq_true', decide_eq_true_eq,
      and_assoc] at takes
    have moved : step conf s (.laneSend r i) =
        some ((s.shift r .future (.lane i)).put r { c with phase := .enqueued }) := by
      simp only [step, there, Option.bind_some]
      unfold laneSend
      rw [at_pc, found]
      simp only
      rw [if_pos takes]
    exact returns_step reached (by simp [own]) moved fun reached =>
      returns_enqueued limited reached (put_there there) rfl within

theorem returns_woken {deadline : Nat} (reached : Reachable (system B conf) s)
    (there : s.calls[r]? = some c) (at_pc : c.phase = .sleeping deadline)
    (rest : ∀ {t : State B}, Reachable (system B conf) t →
      t.calls[r]? = some { c with phase := .dispatching deadline } → t.now = s.now + retry →
        Returns conf bound t r) : Returns conf bound s r := by
  refine returns_step (l := .tick retry) reached rfl rfl fun reached => ?_
  have wakes : advance conf { s with now := s.now + retry } r c =
      some ({ s with now := s.now + retry }.put r { c with phase := .dispatching deadline }) := by
    unfold advance
    rw [at_pc]
  exact returns_step reached (by simp [own]) (advance_step there wakes) fun reached =>
    rest reached (put_there there) rfl

/-- A try finds a lane that takes the context, none open or none with room. In that case the
    call sleeps, wakes and tries again, until it gives up. -/
theorem returns_dispatching {deadline : Nat} (limited : 0 < conf.requestTimeout)
    (reached : Reachable (system B conf) s) (there : s.calls[r]? = some c)
    (at_pc : c.phase = .dispatching deadline) (now : s.now + millis conf.requestTimeout ≤ bound)
    (within : deadline + retry + millis conf.requestTimeout ≤ bound) : Returns conf bound s r := by
  induction left : deadline - s.now using Nat.strongRecOn generalizing s c with
  | ind left ih =>
    by_cases some_room : ∃ i, room s i = true
    · obtain ⟨i, takes⟩ := some_room
      exact returns_sent limited reached there at_pc takes now
    · have none_room : ∀ i, room s i = false := by simpa using some_room
      by_cases open_ : s.slots = [] ∨ ∃ slot ∈ s.slots, slot.laneTx = true
      · have is_full : full s = true := by
          simp only [full, Bool.and_eq_true, Bool.or_eq_true, List.isEmpty_iff, List.any_eq_true,
            List.all_eq_true, none_room]
          exact ⟨open_, fun i _ => rfl⟩
        by_cases late : deadline ≤ s.now
        · apply returns_refused (l := .laneFull r) reached there at_pc (by simp [own, is_full])
          · simp only [step, there, Option.bind_some]
            unfold laneFull
            rw [at_pc]
            simp only
            rw [if_pos late]
          · omega
        · have sleeps : step conf s (.laneFull r) =
              some (s.put r { c with phase := .sleeping deadline }) := by
            simp only [step, there, Option.bind_some]
            unfold laneFull
            rw [at_pc]
            simp only
            rw [if_neg late]
          refine returns_step reached (by simp [own, is_full]) sleeps fun reached => ?_
          refine returns_woken reached (put_there there) rfl fun reached there later => ?_
          have nearer : s.now + retry ≤ deadline + retry := by omega
          apply ih _ _ reached there rfl _ rfl
          · rw [later]
            simp only [State.put, retry]
            omega
          · rw [later]
            simp only [State.put]
            omega
      · apply returns_refused (l := .laneClosed r) reached there at_pc (by simp [own])
        · simp only [step, there, Option.bind_some]
          unfold laneClosed
          rw [at_pc]
          simp only
          rw [if_pos]
          simpa using open_
        · omega

theorem returns_sleeping {deadline : Nat} (limited : 0 < conf.requestTimeout)
    (reached : Reachable (system B conf) s) (there : s.calls[r]? = some c)
    (at_pc : c.phase = .sleeping deadline)
    (within : s.now + millis conf.queueTimeout + retry + millis conf.requestTimeout ≤ bound) :
    Returns conf bound s r := by
  have ahead := (reachable_times reached r c there).1.deadline deadline (.inr at_pc)
  refine returns_woken reached there at_pc fun reached there later => ?_
  exact returns_dispatching limited reached there rfl (by omega) (by omega)

-- The whole of both timeouts is ahead.
variable (limited : 0 < conf.requestTimeout)
  (within : s.now + millis conf.queueTimeout + retry + millis conf.requestTimeout ≤ bound)
include limited within

theorem returns_polling {since : Nat} (reached : Reachable (system B conf) s)
    (there : s.calls[r]? = some c) (at_pc : c.phase = .polling since) :
    Returns conf bound s r := by
  by_cases room : (s.contents .queue).length < conf.queueDepth
  · have moved : advance conf s r c = some ((s.send r).put r { c with phase := .enqueued }) := by
      unfold advance
      rw [at_pc]
      simp only
      rw [if_pos room]
    exact returns_step reached (by simp [own]) (advance_step there moved) fun reached =>
      returns_enqueued limited reached (put_there there) rfl (by change s.now + _ ≤ _; omega)
  · have moved : advance conf s r c =
        some ({ s.shift r .future .pending with sent := s.sent ++ [r] }.put r
          { c with phase := .pending since }) := by
      unfold advance
      rw [at_pc]
      simp only
      rw [if_neg room]
    have sooner : s.now + millis conf.queueTimeout + millis conf.requestTimeout ≤ bound := by
      omega
    exact returns_step reached (by simp [own]) (advance_step there moved) fun reached =>
      returns_pending limited reached (put_there there) rfl sooner

theorem returns_offering (reached : Reachable (system B conf) s) (there : s.calls[r]? = some c)
    (at_pc : c.phase = .offering) : Returns conf bound s r := by
  by_cases room : (s.contents .queue).length < conf.queueDepth
  · have moved : advance conf s r c = some ((s.send r).put r { c with phase := .enqueued }) := by
      unfold advance
      rw [at_pc]
      simp only
      rw [if_pos room]
    exact returns_step reached (by simp [own]) (advance_step there moved) fun reached =>
      returns_enqueued limited reached (put_there there) rfl (by change s.now + _ ≤ _; omega)
  · have moved : advance conf s r c = some (s.put r { c with phase := .polling s.now }) := by
      unfold advance
      rw [at_pc]
      simp only
      rw [if_neg room]
    exact returns_step reached (by simp [own]) (advance_step there moved) fun reached =>
      returns_polling limited within reached (put_there there) rfl

theorem returns_guarded (reached : Reachable (system B conf) s) (there : s.calls[r]? = some c)
    (at_pc : c.phase = .guarded) : Returns conf bound s r := by
  by_cases large : oversize conf c = true
  · have moved : advance conf s r c = some (s.put r { c with phase := .answered response413 }) := by
      unfold advance
      rw [at_pc]
      simp only
      rw [if_pos large]
    exact returns_step reached (by simp [own]) (advance_step there moved) fun reached =>
      returns_answered reached (put_there there) rfl (by change s.now ≤ _; omega)
  · by_cases lanes : conf.lanes = true
    · have moved : advance conf s r c =
          some (s.put r { c with phase := .dispatching (s.now + millis conf.queueTimeout) }) := by
        unfold advance
        rw [at_pc]
        simp only
        rw [if_neg large, if_pos lanes]
      exact returns_step reached (by simp [own]) (advance_step there moved) fun reached =>
        returns_dispatching limited reached (put_there there) rfl
          (by change s.now + _ ≤ _; omega) (by omega)
    · by_cases open_ : s.reqTx = true
      · have moved : advance conf s r c =
            some ({ s with senders := s.senders + 1 }.put r { c with phase := .offering }) := by
          unfold advance
          rw [at_pc]
          simp only
          rw [if_neg large, if_neg lanes, if_pos open_]
        exact returns_step reached (by simp [own]) (advance_step there moved) fun reached =>
          returns_offering limited within reached (put_there there) rfl
      · have moved : advance conf s r c =
            some ((unavailable s).put r { c with phase := .answered response503 }) := by
          unfold advance
          rw [at_pc]
          simp only
          rw [if_neg large, if_neg lanes, if_neg open_]
        exact returns_step reached (by simp [own]) (advance_step there moved) fun reached =>
          returns_answered reached (put_there there) rfl (by change s.now ≤ _; omega)

theorem returns_created (reached : Reachable (system B conf) s) (there : s.calls[r]? = some c)
    (at_pc : c.phase = .created) : Returns conf bound s r := by
  have moved : advance conf s r c =
      some ({ s with inFlight := s.inFlight + 1 }.put r { c with phase := .guarded }) := by
    unfold advance
    rw [at_pc]
  exact returns_step reached (by simp [own]) (advance_step there moved) fun reached =>
    returns_guarded limited within reached (put_there there) rfl

theorem returns_logged (reached : Reachable (system B conf) s) (there : s.calls[r]? = some c)
    (at_pc : c.phase = .logged) : Returns conf bound s r := by
  have moved : advance conf s r c = some ({ s with
      contents := Function.update s.contents .future (s.contents .future ++ [r])
      loc := Function.update s.loc r (some .future) }.put r
        { c with phase := .created, enqueuedAt := s.now, admittedAt := s.now }) := by
    unfold advance
    rw [at_pc]
  exact returns_step reached (by simp [own]) (advance_step there moved) fun reached =>
    returns_created limited within reached (put_there there) rfl

theorem returns_arrived (reached : Reachable (system B conf) s) (there : s.calls[r]? = some c)
    (at_pc : c.phase = .arrived) : Returns conf bound s r := by
  have moved : advance conf s r c =
      some ((s.log conf (.arrival r)).put r { c with phase := .logged, start := s.now }) := by
    unfold advance
    rw [at_pc]
  refine returns_step reached (by simp [own]) (advance_step there moved) fun reached =>
    returns_logged (c := { c with phase := .logged, start := s.now }) limited ?_ reached ?_ rfl
  · simpa [State.put] using within
  · rw [log_put_calls]
    exact put_there there

end Stages

/-- With a request timeout set, a call that the client has not given up has, from every
    reachable state, a run of steps of its own and of the clock that ends with its response,
    before both timeouts and a last try of the lanes have gone by. -/
theorem call_returns (conf : Config) (limited : 0 < conf.requestTimeout) {s : State B}
    (reached : Reachable (system B conf) s) {r : Nat} {c : Call B} (there : s.calls[r]? = some c)
    (live : c.phase ≠ .dropped) :
    Returns conf (s.now + millis conf.queueTimeout + retry + millis conf.requestTimeout) s r := by
  have whole :=
    Nat.le_refl (s.now + millis conf.queueTimeout + retry + millis conf.requestTimeout)
  cases at_pc : c.phase with
  | arrived => exact returns_arrived limited whole reached there at_pc
  | logged => exact returns_logged limited whole reached there at_pc
  | created => exact returns_created limited whole reached there at_pc
  | guarded => exact returns_guarded limited whole reached there at_pc
  | offering => exact returns_offering limited whole reached there at_pc
  | polling since => exact returns_polling limited whole reached there at_pc
  | pending since => exact returns_pending limited reached there at_pc (by omega)
  | dispatching deadline =>
    have ahead := (reachable_times reached r c there).1.deadline deadline (.inl at_pc)
    exact returns_dispatching limited reached there at_pc (by omega) (by omega)
  | sleeping deadline => exact returns_sleeping limited reached there at_pc whole
  | enqueued => exact returns_enqueued limited reached there at_pc (by omega)
  | waiting since => exact returns_waiting limited reached there at_pc (by omega)
  | answered response => exact returns_answered reached there at_pc (by omega)
  | closing response => exact returns_closing reached there at_pc (by omega)
  | returned response => exact ⟨[], s, c, response, rfl, there, at_pc, by omega⟩
  | dropped => exact absurd at_pc live

/-- The one worker has taken a request and never comes back. Its lane is full, and one more
    request sleeps between two tries. -/
def crowded : List (Label Unit) :=
  [[Label.registerWorker],
    (List.range 6).flatMap fun r => Label.arrive none :: List.replicate 4 (.advance r),
    [.laneSend 0 0, .take 0 (some 0), .admitCtx 0], (List.range 4).map fun k => .laneSend (k + 1) 0,
    [.laneFull 5]].flatten

def limitedServer : Config := ⟨true, 1, 5, 30, 8, true⟩

def crowdedState : State Unit :=
  (run (system Unit limitedServer) (initial Unit) crowded).getD (initial Unit)

theorem crowded_request_returns :
    crowdedState.calls[5]?.map (·.phase) = some (.sleeping 5000000) ∧
      Returns limitedServer (crowdedState.now + millis 5 + retry + millis 30) crowdedState 5 := by
  have ran : run (system Unit limitedServer) (initial Unit) crowded = some crowdedState := rfl
  have there : crowdedState.calls[5]? = some (crowdedState.calls.getD 5 (newCall none)) := rfl
  exact ⟨rfl,
    call_returns limitedServer (by decide) (reachable_run (.start rfl) ran) there (nofun)⟩

end KinoRequestDeadlines
