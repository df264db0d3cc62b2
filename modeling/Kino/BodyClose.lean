import Kino.StreamEnd

/-!
How often `Worker.serve` (lib/kino/worker.rb) closes the body of a response: `serve` with a
close that is counted is the worker's to anyone who does not look at the count.
-/
namespace KinoBodyClose
open Programs KinoWorker KinoStreamEnd
variable {σ H B T : Type}

/-- `body.close if body.respond_to?(:close)`, counted. -/
def countedClose : Close → Prog Exn (Nat × σ) Unit
  | .absent => pure ()
  | .returns => update fun s => (s.1 + 1, s.2)
  | .raises e => do
    update fun s => (s.1 + 1, s.2)
    raise e

def serveCounted (native : Native σ H B) (call : Prog Exn σ (Reply H B)) (reports : Reports σ)
    (deliver : Except Exn (Option H) → B → Prog Exn σ (Fused T)) :
    Prog Exn (Nat × σ) (Fused T) :=
  serveWith native.lifted countedClose (lift call) reports.lifted fun head chunks =>
    lift (deliver head chunks)

def closes (native : Native σ H B) (call : Prog Exn σ (Reply H B)) (reports : Reports σ)
    (deliver : Except Exn (Option H) → B → Prog Exn σ (Fused T)) (s : σ) : Nat :=
  (serveCounted native call reports deliver (0, s)).2.1

theorem countedClose_erases (c : Close) :
    Erases Prod.snd (countedClose c : Prog Exn (Nat × σ) Unit) (closeBody c) := by
  cases c with
  | absent => exact erases_pure ()
  | returns => exact fun _ => rfl
  | raises e => exact fun _ => rfl

theorem serveCounted_erases (native : Native σ H B) (call : Prog Exn σ (Reply H B))
    (reports : Reports σ) (deliver : Except Exn (Option H) → B → Prog Exn σ (Fused T)) :
    Erases Prod.snd (serveCounted native call reports deliver)
      (serve native call reports deliver) := by
  apply serve_erases (lifted_erasing native) (lifted_telling reports) countedClose_erases
    (erases_lift call)
  intro head chunks
  exact erases_lift (deliver head chunks)

theorem countedClose_count {c : Close} (closable : c ≠ .absent) (s : Nat × σ) :
    (countedClose c s).2.1 = s.1 + 1 := by
  cases c with
  | absent => exact absurd rfl closable
  | returns => rfl
  | raises e => rfl

theorem lift_count {α : Type} (p : Prog Exn σ α) (n : Nat) :
    Keeps (fun s : Nat × σ => s.1 = n) (lift p) := fun _ kept => kept

theorem giveUp_count (native : Native σ H B) (reports : Reports σ) (e : Exn) (n : Nat) :
    Keeps (fun s : Nat × σ => s.1 = n)
      (giveUp native.lifted reports.lifted e : Prog Exn (Nat × σ) (Fused T)) := by
  apply keeps_bind (lift_count (reports.exception e) n)
  intro _
  apply keeps_bind (lift_count native.abort n)
  intro _
  exact keeps_bind (lift_count (reports.onError e) n) fun _ => keeps_pure _ _

theorem rescue_count (native : Native σ H B) (reports : Reports σ)
    (p : Prog Exn (Nat × σ) (Fused T)) (s : Nat × σ) :
    (rescue p (giveUp native.lifted reports.lifted) s).2.1 = (p s).2.1 := by
  unfold rescue
  cases eq : p s with
  | mk o t =>
    cases o with
    | ok a => rfl
    | stuck => rfl
    | raised e => exact giveUp_count native reports e t.1 t rfl

/-- The part of `serve` that is rescued, once the app has answered. -/
def answerCounted (native : Native σ H B) (reports : Reports σ)
    (deliver : Except Exn (Option H) → B → Prog Exn σ (Fused T)) (reply : Reply H B) :
    Prog Exn (Nat × σ) (Fused T) :=
  respond native.lifted countedClose reports.lifted (fun head chunks => lift (deliver head chunks))
    reply

theorem closes_answer {native : Native σ H B} {call : Prog Exn σ (Reply H B)}
    {reports : Reports σ} {deliver : Except Exn (Option H) → B → Prog Exn σ (Fused T)} {s s1 : σ}
    {reply : Reply H B} (called : call s = (.ok reply, s1)) :
    closes native call reports deliver s =
      (answerCounted native reports deliver reply (0, s1)).2.1 := by
  have lifted : lift call (0, s) = (.ok reply, (0, s1)) := by simp only [lift, called]
  unfold closes serveCounted serveWith
  rw [rescue_count, bind_ok lifted]
  rfl

theorem lift_then_count {α β : Type} (p : Prog Exn σ α) (f : α → Prog Exn (Nat × σ) β) (s : σ) :
    ((lift p >>= f) (0, s)).2.1 =
      match p s with
      | (.ok a, t) => (f a (0, t)).2.1
      | _ => 0 := by
  cases eq : p s with
  | mk o t =>
    cases o with
    | ok a =>
      have lifted : lift p (0, s) = (.ok a, (0, t)) := by simp only [lift, eq]
      rw [bind_ok lifted]
    | raised e =>
      have lifted : lift p (0, s) = (.raised e, (0, t)) := by simp only [lift, eq]
      rw [bind_raised lifted]
    | stuck =>
      have lifted : lift p (0, s) = (.stuck, (0, t)) := by simp only [lift, eq]
      simp only [bind, lifted]

theorem close_then_count {β : Type} {c : Close} (closable : c ≠ .absent)
    {f : Prog Exn (Nat × σ) β} (kept : ∀ n, Keeps (fun s : Nat × σ => s.1 = n) f) (s : Nat × σ) :
    ((countedClose c >>= fun _ => f) s).2.1 = s.1 + 1 := by
  have count := countedClose_count closable s
  cases eq : countedClose c s with
  | mk o t =>
    rw [eq] at count
    cases o with
    | ok a =>
      rw [bind_ok eq]
      exact kept (s.1 + 1) t count
    | raised e =>
      rw [bind_raised eq]
      exact count
    | stuck =>
      simp only [bind, eq]
      exact count

theorem lifted_keeps (native : Native σ H B) (n : Nat) :
    (∀ chunk, Keeps (fun s : Nat × σ => s.1 = n) (native.lifted.writeChunk chunk)) ∧
    Keeps (fun s : Nat × σ => s.1 = n) native.lifted.finish ∧
    Keeps (fun s : Nat × σ => s.1 = n) native.lifted.readInput :=
  ⟨fun _ _ kept => kept, fun _ kept => kept, fun _ kept => kept⟩

theorem called_count (native : Native σ H B) (script : Script Exn (StreamAct B) (Value B))
    (s : Nat × σ) :
    (withObject Stream.new (ensure (script.run (Stream.perform native.lifted))
      (Stream.close native.lifted)) s).2.1 = s.1 := by
  obtain ⟨write, finish, read⟩ := lifted_keeps native s.1
  have kept : Keeps (fun u : Nat × σ => u.1 = s.1)
      (withObject Stream.new (ensure (script.run (Stream.perform native.lifted))
        (Stream.close native.lifted))) := by
    apply keeps_object
    apply keeps_ensure
    · apply keeps_script
      exact perform_keeps native.lifted _ finish read write
    · exact close_keeps finish
  exact kept s rfl

theorem driven_count {native : Native σ H B} {c : Close} (closable : c ≠ .absent)
    (each : Option (Script Exn B Unit)) (s : Nat × σ)
    (going : (ensure (do
      (each.getD noEach).run native.lifted.writeChunk
      native.lifted.finish) (countedClose c) s).1 ≠ .stuck) :
    (ensure (do
      (each.getD noEach).run native.lifted.writeChunk
      native.lifted.finish) (countedClose c) s).2.1 = s.1 + 1 := by
  obtain ⟨write, finish, _⟩ := lifted_keeps native s.1
  have kept : Keeps (fun u : Nat × σ => u.1 = s.1) (do
      (each.getD noEach).run native.lifted.writeChunk
      native.lifted.finish : Prog Exn (Nat × σ) Unit) :=
    keeps_bind (keeps_script write _) fun _ => finish
  have same := kept s rfl
  unfold ensure at going ⊢
  cases eq : (do
      (each.getD noEach).run native.lifted.writeChunk
      native.lifted.finish : Prog Exn (Nat × σ) Unit) s with
  | mk o t =>
    rw [eq] at going same
    have count := countedClose_count closable t
    cases o with
    | stuck => exact absurd rfl going
    | ok | raised =>
      cases eq' : countedClose c t with
      | mk o' u =>
        rw [eq'] at count
        rw [same] at count
        cases o' with
        | ok | raised | stuck => simpa only [eq'] using count

/-- The body is closed on the way out of `each`, and never after `call`. -/
theorem streaming_count {native : Native σ H B} {reply : Reply H B}
    (closable : reply.close ≠ .absent) (s : σ)
    (going : (deliverStreamingWith native.lifted countedClose reply (0, s)).1 ≠ .stuck) :
    (deliverStreamingWith native.lifted countedClose reply (0, s)).2.1 =
      if (native.sendHeaders reply.head s).1 = .ok () ∧ callablePath reply = false then 1 else 0 := by
  unfold deliverStreamingWith at going ⊢
  have sends : (native.lifted : Native (Nat × σ) H B).sendHeaders reply.head =
      lift (native.sendHeaders reply.head) := rfl
  rw [sends] at going ⊢
  rw [lift_then_count]
  cases eq : native.sendHeaders reply.head s with
  | mk o t =>
    cases o with
    | raised e => simp
    | stuck => simp
    | ok a =>
      have lifted : lift (native.sendHeaders reply.head) (0, s) = (.ok a, (0, t)) := by
        simp only [lift, eq]
      rw [bind_ok lifted] at going
      cases call : reply.call with
      | none =>
        simp only [call] at going ⊢
        rw [driven_count closable reply.each (0, t) going]
        simp [callablePath, call]
      | some script =>
        cases each : reply.each with
        | some each' =>
          simp only [call, each] at going ⊢
          rw [driven_count closable (some each') (0, t) going]
          simp [callablePath, call, each]
        | none =>
          simp only
          rw [called_count]
          simp [callablePath, call, each]

theorem complete_count (reports : Reports σ) (status : Int) (n : Nat) :
    Keeps (fun s : Nat × σ => s.1 = n)
      ((reports.lifted : Reports (Nat × σ)).fireAfterRequestComplete status) := by
  unfold Reports.fireAfterRequestComplete Reports.lifted
  cases reports.afterRequestComplete with
  | none => exact keeps_pure _ ()
  | some fire => exact lift_count (fire status) n

/-- The response gets as far as the close: a complete one is sent without an error, a
    streamed one has its head sent and goes through `each`. -/
def ComesToClose (native : Native σ H B) (hook : Bool)
    (deliver : Except Exn (Option H) → B → Prog Exn σ (Fused T)) (reply : Reply H B) (s : σ) : Prop :=
  match reply.toAry with
  | some (.error _) => False
  | some (.ok chunks) => (∃ code, reply.status = .ok code) ∧
    if hook then (native.sendSimple reply.head chunks s).1 = .ok ()
    else ∃ result, (deliver reply.head chunks s).1 = .ok result
  | none => (∃ code, reply.status = .ok code) ∧ (native.sendHeaders reply.head s).1 = .ok () ∧
    callablePath reply = false

theorem after_count {α β : Type} {p : Prog Exn (Nat × σ) α} {q : α → Prog Exn (Nat × σ) β}
    (keeps : ∀ a n, Keeps (fun s : Nat × σ => s.1 = n) (q a)) (s : Nat × σ) :
    ((p >>= q) s).2.1 = (p s).2.1 := by
  cases ran : p s with
  | mk o t =>
    cases o with
    | ok a =>
      rw [bind_ok ran]
      exact keeps a t.1 t rfl
    | raised e => rw [bind_raised ran]
    | stuck => rw [bind_stuck ran]

/-- An array-like body that was joined. -/
theorem joined_count {native : Native σ H B} {reports : Reports σ}
    {deliver : Except Exn (Option H) → B → Prog Exn σ (Fused T)} {reply : Reply H B}
    (closable : reply.close ≠ .absent) (s : σ) {chunks : B} {code : Int}
    (toAry : reply.toAry = some (.ok chunks)) (status : reply.status = .ok code) :
    (ComesToClose native reports.completes deliver reply s →
      (answerCounted native reports deliver reply (0, s)).2.1 = 1) ∧
    (¬ComesToClose native reports.completes deliver reply s →
      (answerCounted native reports deliver reply (0, s)).2.1 = 0) := by
  have accepted : ∃ c : Int, (.ok code : Except Exn Int) = .ok c := ⟨code, rfl⟩
  unfold answerCounted respond ComesToClose
  simp only [toAry, status, fromExcept_ok_bind, accepted, true_and]
  cases set : reports.afterRequestComplete with
  | some fire =>
    have hook : reports.completes = true := by simp [Reports.completes, set]
    have sends : native.lifted.sendSimple reply.head chunks =
        (lift (native.sendSimple reply.head chunks) : Prog Exn (Nat × σ) Unit) := rfl
    have fires : ∀ n, Keeps (fun s : Nat × σ => s.1 = n) (do
        lift (fire code)
        pure .notFused : Prog Exn (Nat × σ) (Fused T)) := fun n =>
      keeps_bind (lift_count (fire code) n) fun _ => keeps_pure _ _
    simp only [hook, if_true, Reports.lifted, set, Option.map_some, sends]
    rw [lift_then_count]
    cases eq : native.sendSimple reply.head chunks s with
    | mk o t =>
      cases o with
      | ok a => simpa using close_then_count closable fires (0, t)
      | raised e => simp
      | stuck => simp
  | none =>
    have hook : reports.completes = false := by simp [Reports.completes, set]
    simp only [hook, Bool.false_eq_true, if_false, Reports.lifted, set, Option.map_none]
    rw [lift_then_count]
    cases eq : deliver reply.head chunks s with
    | mk o t =>
      cases o with
      | ok a => simpa using close_then_count closable (fun n => keeps_pure _ a) (0, t)
      | raised e => simp
      | stuck => simp

theorem answer_count {native : Native σ H B} {reports : Reports σ}
    {deliver : Except Exn (Option H) → B → Prog Exn σ (Fused T)} {reply : Reply H B}
    (closable : reply.close ≠ .absent) (s : σ)
    (going : (answerCounted native reports deliver reply (0, s)).1 ≠ .stuck) :
    (ComesToClose native reports.completes deliver reply s →
      (answerCounted native reports deliver reply (0, s)).2.1 = 1) ∧
    (¬ComesToClose native reports.completes deliver reply s →
      (answerCounted native reports deliver reply (0, s)).2.1 = 0) := by
  cases toAry : reply.toAry with
  | some joined =>
    cases joined with
    | error e => simp [answerCounted, respond, ComesToClose, toAry, fromExcept_error_bind]
    | ok chunks =>
      cases status : reply.status with
      | error e =>
        simp [answerCounted, respond, ComesToClose, toAry, status, fromExcept_ok_bind,
          fromExcept_error_bind]
      | ok code => exact joined_count closable s toAry status
  | none =>
    cases status : reply.status with
    | error e =>
      simp [answerCounted, respond, ComesToClose, toAry, status, fromExcept_error_bind]
    | ok code =>
      have accepted : ∃ c : Int, (.ok code : Except Exn Int) = .ok c := ⟨code, rfl⟩
      unfold answerCounted respond at going ⊢
      unfold ComesToClose
      simp only [toAry, status, fromExcept_ok_bind, accepted, true_and] at going ⊢
      have streamed :
          (deliverStreamingWith native.lifted countedClose reply (0, s)).1 ≠ .stuck := by
        intro stuck
        apply going
        rw [bind_stuck (Prod.ext stuck rfl)]
      have after := after_count (p := deliverStreamingWith native.lifted countedClose reply)
        (q := fun _ => do
          (reports.lifted : Reports (Nat × σ)).fireAfterRequestComplete code
          (pure .notFused : Prog Exn (Nat × σ) (Fused T)))
        (fun _ n => keeps_bind (complete_count reports code n) fun _ => keeps_pure _ _) (0, s)
      rw [after, streaming_count closable s streamed]
      constructor
      · intro comes
        rw [if_pos comes]
      · intro misses
        rw [if_neg misses]

/-- A body that responds to `close` is closed at most once, and once exactly when the
    response gets as far as the close. -/
theorem closed_once_iff {native : Native σ H B} {call : Prog Exn σ (Reply H B)}
    {reports : Reports σ} {deliver : Except Exn (Option H) → B → Prog Exn σ (Fused T)} {s s1 : σ}
    {reply : Reply H B} (called : call s = (.ok reply, s1)) (closable : reply.close ≠ .absent)
    (returns : (serve native call reports deliver s).1 ≠ .stuck) :
    (closes native call reports deliver s = 1 ↔
        ComesToClose native reports.completes deliver reply s1) ∧
      closes native call reports deliver s ≤ 1 := by
  have lifted : lift call (0, s) = (.ok reply, (0, s1)) := by simp only [lift, called]
  have erased := serveCounted_erases native call reports deliver (0, s)
  have going : (answerCounted native reports deliver reply (0, s1)).1 ≠ .stuck := by
    intro stuck
    apply returns
    rw [← erased]
    cases eq : answerCounted native reports deliver reply (0, s1) with
    | mk o t =>
      rw [eq] at stuck
      cases stuck
      have inner : (lift call >>= answerCounted native reports deliver) (0, s) = (.stuck, t) :=
        (bind_ok lifted).trans eq
      have outer : serveCounted native call reports deliver (0, s) = (.stuck, t) :=
        rescue_stuck inner
      rw [outer]
  obtain ⟨once, never⟩ := answer_count closable s1 going
  rw [closes_answer called]
  by_cases comes : ComesToClose native reports.completes deliver reply s1
  · rw [once comes]
    exact ⟨iff_of_true rfl comes, le_refl 1⟩
  · rw [never comes]
    exact ⟨iff_of_false (by omega) comes, Nat.zero_le 1⟩

/-- On a responder: chunks, status and head are good, a streamed body goes through `each`;
    a head the http crate rejects does no harm once somebody else has answered. -/
theorem comesToClose_responder (reply : Reply H B) (w : World H B)
    (deliver : Except Exn (Option H) → B → Prog Exn (World H B) (Fused T)) :
    ComesToClose native true deliver reply w ↔ (∃ code, reply.status = .ok code) ∧
      match reply.toAry with
      | some joined => (∃ chunks, joined = .ok chunks) ∧ ∃ head, reply.head = .ok (some head)
      | none => callablePath reply = false ∧ ∃ builder, reply.head = .ok builder ∧
          (builder = none → (KinoResponder.claim w.resp).1 = false) := by
  unfold ComesToClose
  cases toAry : reply.toAry with
  | some joined =>
    cases joined with
    | error e => simp
    | ok chunks =>
      cases head : reply.head with
      | error e => simp [native, sendSimple]
      | ok builder =>
        cases builder with
        | none => simp [native, sendSimple]
        | some head => simp [native, sendSimple]
  | none =>
    cases head : reply.head with
    | error e => simp [native, sendHeaders]
    | ok builder =>
      cases claimed : KinoResponder.claim w.resp with
      | mk won r =>
        cases won with
        | false => simp [native, sendHeaders, KinoResponder.sendStreamHead, claimed]
        | true =>
          cases builder with
          | none => simp [native, sendHeaders, KinoResponder.sendStreamHead, claimed]
          | some head => simp [native, sendHeaders, KinoResponder.sendStreamHead, claimed]

def callableReply : Reply Nat String :=
  ⟨.ok 200, .ok (some 200), none, none, some (.act (.write "a") fun _ => .done), .returns⟩

def badHeadReply : Reply Nat String := ⟨.ok 200, .ok none, some (.ok "a"), none, none, .returns⟩

theorem bodies_left_open :
    closes native (pure callableReply) (Outcomes.quiet false).reports noTake fresh = 0 ∧
    (serve native (pure callableReply) (Outcomes.quiet false).reports noTake fresh).1 = .ok .notFused ∧
    closes native (pure badHeadReply) (Outcomes.quiet true).reports noTake fresh = 0 ∧
    (serve native (pure badHeadReply) (Outcomes.quiet true).reports noTake fresh).1 = .ok .notFused := by
  refine ⟨?_, ?_, ?_, ?_⟩
  · decide +kernel
  · decide +kernel
  · decide +kernel
  · decide +kernel

/-- A body whose `each` raises is closed all the same. -/
def raisingReply : Reply Nat String :=
  ⟨.ok 200, .ok (some 200), none, some (.act "a" fun _ => .raises "boom"), none, .returns⟩

theorem raising_each_closed :
    closes native (pure raisingReply) (Outcomes.quiet false).reports noTake fresh = 1 ∧
      closes native (pure raisingReply) (Outcomes.quiet false).reports noTake fresh ≤ 1 := by
  have called : (pure raisingReply : Prog Exn (World Nat String) _) fresh = (.ok raisingReply, fresh) :=
    rfl
  have returns : (serve native (pure raisingReply) (Outcomes.quiet false).reports noTake fresh).1 ≠ .stuck := by
    decide +kernel
  have law := closed_once_iff called (by decide) returns
  exact ⟨law.1.mpr ⟨⟨200, rfl⟩, rfl, rfl⟩, law.2⟩

end KinoBodyClose
