import Kino.Responder

/-!
The race for the response head. The first call past `claim` owns the oneshot
sender until it sends or drops it; every other call only ever reads the flag.
-/
namespace KinoResponseRace
open Transitions Channels KinoResponder
variable {H B : Type}

/-- Past a won `claim` and not yet rid of the head sender. -/
def owning : Pc H B → Bool
  | .takeHead _ | .holding _ | .storeBody _ | .sendStream _ => true
  | _ => false

@[simp] theorem owning_lost (c : Claimer H) : owning (lost c : Pc H B) = false := by
  cases c <;> rfl

@[simp] theorem owning_entry (c : Call H B) : owning c.entry = false := by
  rcases c with builder | builder | _ | _ | _ <;> try rfl
  cases builder <;> rfl

structure Race (H : Type) where
  responded : Bool
  headTx : Bool
  sender : Bool
  value : Option (Response H)
  winner : Option Nat
  heads : List (Nat × Response H)

def race (s : State H B) : Race H :=
  ⟨s.resp.responded, s.resp.headTx, s.resp.head.sender, s.resp.head.value, s.winner, s.heads⟩

structure ClaimInv (s : State H B) : Prop where
  unclaimed : s.resp.responded = false → s.winner = none ∧ s.resp.headTx = true ∧
    s.resp.head.sender = true ∧ s.heads = []
  claimed : s.resp.responded = true → ∃ w, s.winner = some w
  sole : ∀ t, owning (s.pc t) = true → s.winner = some t ∧ s.resp.responded = true ∧
    s.resp.head.sender = true ∧ s.heads = []
  in_slot : ∀ t c, s.pc t = .takeHead c → s.resp.headTx = true
  released : ∀ w, s.winner = some w → owning (s.pc w) = false → s.resp.head.sender = false
  once : s.heads.length ≤ 1
  by_winner : ∀ e ∈ s.heads, s.winner = some e.1
  value_sent : ∀ r, s.resp.head.value = some r → r ∈ s.heads.map Prod.snd

theorem initial_claim_inv : ClaimInv (initial : State H B) := by
  constructor <;> simp [initial, new, owning, Oneshot.create]

/-- What any one step does to the race: nothing, a won claim, a move of the owner
    towards its send, or the end of its ownership. -/
inductive HeadChange (s s' : State H B) : Prop where
  | quiet (pcs : ∀ u, owning (s.pc u) = true ∨ owning (s'.pc u) = true → s'.pc u = s.pc u)
      (same : race s' = race s)
  | win (t : Nat) (c : Claimer H) (free : s.resp.responded = false)
      (pcs : s'.pc = Function.update s.pc t (.takeHead c))
      (same : race s' = { race s with responded := true, winner := some t })
  | hold (t : Nat) (p : Pc H B) (headTx : Bool) (before : owning (s.pc t) = true)
      (after : owning p = true) (past : ∀ c, p ≠ .takeHead c)
      (pcs : s'.pc = Function.update s.pc t p) (same : race s' = { race s with headTx := headTx })
  | release (t : Nat) (p : Pc H B) (sent : Option (Response H)) (value : Option (Response H))
      (before : owning (s.pc t) = true) (after : owning p = false)
      (pcs : s'.pc = Function.update s.pc t p) (held : value = s.resp.head.value ∨ value = sent)
      (same : race s' = { race s with
        sender := false, value := value, heads := s.heads ++ (sent.map (t, ·)).toList })

theorem quiet_step {s s' : State H B} {t : Nat} {p : Pc H B}
    (before : owning (s.pc t) = false) (after : owning p = false)
    (pcs : s'.pc = Function.update s.pc t p) (same : race s' = race s) : HeadChange s s' := by
  refine .quiet (fun u own => ?_) same
  rw [pcs] at own ⊢
  by_cases eq : u = t
  · subst u; simp [before, after] at own
  · simp [eq]

theorem send_race (c : Oneshot (Response H)) (r : Response H) :
    (c.send r).2.sender = false ∧ ((c.send r).2.value = c.value ∨ (c.send r).2.value = some r) := by
  unfold Oneshot.send
  split <;> simp

theorem sendStream_race (r : Responder H B) (head : H) :
    (sendStream r head).responded = r.responded ∧ (sendStream r head).headTx = r.headTx ∧
    (sendStream r head).head = (r.head.send (.stream head)).2 := by
  unfold sendStream
  split <;> simp_all

theorem sendAbandoned_keeps {r r' : Responder H B} (sent : sendAbandoned r = some r') :
    r'.responded = r.responded ∧ r'.headTx = r.headTx ∧ r'.head = r.head ∧ r'.bodyTx = r.bodyTx := by
  unfold sendAbandoned at sent
  split at sent <;> cases sent
  simp

theorem finishStream_keeps (r : Responder H B) : (finishStream r).responded = r.responded ∧
    (finishStream r).headTx = r.headTx ∧ (finishStream r).head = r.head := by
  unfold finishStream
  split <;> simp

theorem advance_head_change {s s' : State H B} {t : Nat} (inv : ClaimInv s)
    (moved : Advance s t s') : HeadChange s s' := by
  cases moved with
  | late c at_pc => exact quiet_step (t := t) (by simp [at_pc, owning]) (owning_lost c) rfl rfl
  | first c at_pc free => exact .win t c free rfl rfl
  | take c at_pc => exact .hold t _ false (by simp [at_pc, owning]) rfl (by simp) rfl rfl
  | noSender c at_pc missing =>
    have := inv.in_slot t c at_pc
    simp [missing] at this
  | respond head at_pc =>
    obtain ⟨dropped, held⟩ := send_race s.resp.head (.full head)
    exact .release t _ (some (.full head)) _ (by simp [at_pc, owning]) rfl rfl held
      (by simp [race, dropped])
  | canned at_pc =>
    obtain ⟨dropped, held⟩ := send_race s.resp.head response500
    exact .release t _ (some response500) _ (by simp [at_pc, owning]) rfl rfl held
      (by simp [race, dropped])
  | reject at_pc =>
    exact .release t _ none _ (by simp [at_pc, owning]) rfl rfl (.inl rfl)
      (by simp [race, Oneshot.dropSender])
  | build head at_pc => exact .hold t _ _ (by simp [at_pc, owning]) rfl (by simp) rfl rfl
  | store head at_pc => exact .hold t _ _ (by simp [at_pc, owning]) rfl (by simp) rfl rfl
  | stream head at_pc =>
    obtain ⟨dropped, held⟩ := send_race s.resp.head (.stream head)
    obtain ⟨responded, headTx, sent⟩ := sendStream_race s.resp head
    exact .release t _ (some (.stream head)) _ (by simp [at_pc, owning]) rfl rfl held
      (by simp [race, responded, headTx, sent, dropped])
  | takeBody at_pc => exact quiet_step (t := t) (by simp [at_pc, owning]) rfl rfl rfl
  | noBody at_pc => exact quiet_step (t := t) (by simp [at_pc, owning]) rfl rfl rfl
  | abandon r at_pc sent =>
    obtain ⟨responded, headTx, head, -⟩ := sendAbandoned_keeps sent
    exact quiet_step (t := t) (by simp [at_pc, owning]) rfl rfl
      (by simp [race, responded, headTx, head])
  | clone chunk at_pc => exact quiet_step (t := t) (by simp [at_pc, owning]) rfl rfl rfl
  | notOpen chunk at_pc => exact quiet_step (t := t) (by simp [at_pc, owning]) rfl rfl rfl
  | tick => exact .quiet (fun _ _ => rfl) rfl
  | write chunk at_pc => exact quiet_step (t := t) (by simp [at_pc, owning]) rfl rfl rfl
  | finish at_pc =>
    obtain ⟨responded, headTx, head⟩ := finishStream_keeps s.resp
    exact quiet_step (t := t) (by simp [at_pc, owning]) rfl rfl
      (by simp [race, responded, headTx, head])

theorem dropHeadRx_race (r : Responder H B) : (dropHeadRx r).responded = r.responded ∧
    (dropHeadRx r).headTx = r.headTx ∧ (dropHeadRx r).head = r.head.dropReceiver ∧
    (dropHeadRx r).bodyTx = r.bodyTx := by
  unfold dropHeadRx
  split <;> simp

theorem step_head_change {ms : Nat} {s s' : State H B} {l : Label H B} (inv : ClaimInv s)
    (moved : Move ms s l s') : HeadChange s s' := by
  have released := dropHeadRx_race s.resp
  cases moved with
  | call t c idle => exact quiet_step (t := t) (by simp [idle, owning]) (owning_entry c) rfl rfl
  | step t s' moved => exact advance_head_change inv moved
  | interrupt t chunk at_pc => exact quiet_step (t := t) (by simp [at_pc, owning]) rfl rfl rfl
  | dropCtx t idle => exact quiet_step (t := t) (by simp [idle, owning]) rfl rfl rfl
  | timeout | clientGone =>
    exact .quiet (fun _ _ => rfl) (by simp [race, released, Oneshot.dropReceiver])
  | _ => exact .quiet (fun _ _ => rfl) rfl

theorem race_fields {s : State H B} {r : Race H} (same : race s = r) :
    s.resp.responded = r.responded ∧ s.resp.headTx = r.headTx ∧ s.resp.head.sender = r.sender ∧
    s.resp.head.value = r.value ∧ s.winner = r.winner ∧ s.heads = r.heads := by
  subst same
  simp [race]

theorem change_claim_inv {s s' : State H B} (inv : ClaimInv s) (change : HeadChange s s') :
    ClaimInv s' := by
  obtain ⟨unclaimed, claimed, sole, slot, released, once, winner, value⟩ := inv
  cases change with
  | quiet pcs same =>
    obtain ⟨e1, e2, e3, e4, e5, e6⟩ := race_fields same
    simp only [race] at e1 e2 e3 e4 e5 e6
    constructor <;> simp only [e1, e2, e3, e4, e5, e6]
    · exact unclaimed
    · exact claimed
    · intro t own; exact sole t (by rw [← pcs t (.inr own)]; exact own)
    · intro t c at_pc
      exact slot t c (by rw [← pcs t (.inr (by simp [at_pc, owning]))]; exact at_pc)
    · intro w won free
      refine released w won ?_
      by_contra own
      simp only [Bool.not_eq_false] at own
      simp [pcs w (.inl own), own] at free
    · exact once
    · exact winner
    · exact value
  | win t c free pcs same =>
    obtain ⟨e1, e2, e3, e4, e5, e6⟩ := race_fields same
    simp only [race] at e1 e2 e3 e4 e5 e6
    obtain ⟨none_won, present, sender, heads⟩ := unclaimed free
    constructor <;> simp only [e1, e2, e3, e4, e5, e6, pcs, Function.update_apply]
    · simp
    · simp
    · grind -linarith
    · grind -linarith
    · grind -linarith [owning]
    · exact once
    · simp [heads]
    · exact value
  | hold t p headTx before after past pcs same =>
    obtain ⟨e1, e2, e3, e4, e5, e6⟩ := race_fields same
    simp only [race] at e1 e2 e3 e4 e5 e6
    obtain ⟨won, responded, sender, heads⟩ := sole t before
    constructor <;> simp only [e1, e2, e3, e4, e5, e6, pcs, Function.update_apply]
    · simp [responded]
    · exact claimed
    · grind -linarith
    · grind -linarith [owning]
    · grind -linarith
    · exact once
    · exact winner
    · exact value
  | release t p sent held before after pcs from_sent same =>
    obtain ⟨e1, e2, e3, e4, e5, e6⟩ := race_fields same
    simp only [race] at e1 e2 e3 e4 e5 e6
    obtain ⟨won, responded, sender, heads⟩ := sole t before
    constructor <;> simp only [e1, e2, e3, e4, e5, e6, pcs, Function.update_apply]
    · simp [responded]
    · exact claimed
    · grind -linarith
    · grind -linarith [owning]
    · simp
    · cases sent <;> simp [heads]
    · intro e member
      cases sent <;> simp [heads] at member
      simpa [member] using won
    · intro r eq
      rcases from_sent with same_value | same_value
      · have := value r (same_value ▸ eq)
        simp [heads] at this
      · simp [← same_value, eq]

theorem reachable_claim_inv {ms : Nat} {s : State H B} (reached : Reachable (system H B ms) s) :
    ClaimInv s :=
  reachable_invariant ClaimInv (by rintro s rfl; exact initial_claim_inv)
    (fun _ _ _ inv moved => change_claim_inv inv (step_head_change inv (step_move moved))) reached

/-- A call that did not win the claim never touches the head channel. -/
theorem advance_other_keeps_head {s s' : State H B} {t w : Nat} (inv : ClaimInv s)
    (won : s.winner = some w) (other : t ≠ w) (moved : Advance s t s') :
    s'.resp.head = s.resp.head ∧ s'.heads = s.heads ∧ s'.winner = some w := by
  have not_owning : owning (s.pc t) = false := by
    by_contra own
    simp only [Bool.not_eq_false] at own
    have := (inv.sole t own).1
    rw [won] at this
    exact other (Option.some.inj this).symm
  cases moved
  case first free => exact absurd (inv.unclaimed free).1 (by simp [won])
  case abandon r at_pc sent => simp [sendAbandoned_keeps sent, won]
  case finish => simp [finishStream_keeps, won]
  all_goals simp_all [owning]

/-- Inside `send_response`, `send_stream_head` or `respond_500_if_unsent`. -/
def claiming : Pc H B → Bool
  | .swap _ | .takeBody | .sendErr => true
  | p => owning p

def NoneClaiming (s : State H B) : Prop := ∀ t, claiming (s.pc t) = false

/-- `RequestCtx::drop` has run to its end. -/
def Dropped (s : State H B) : Prop := ∃ t r, s.dropper = some t ∧ s.pc t = .done r

def DropInv (s : State H B) : Prop :=
  ∀ t, s.dropper = some t → s.pc t = .swap .backstop ∨ s.resp.responded = true

theorem change_keeps_responded {s s' : State H B} (change : HeadChange s s')
    (responded : s.resp.responded = true) : s'.resp.responded = true := by
  cases change with
  | quiet _ same => exact (race_fields same).1.trans responded
  | win _ _ _ _ same => exact (race_fields same).1
  | hold _ _ _ _ _ _ _ same => exact (race_fields same).1.trans responded
  | release _ _ _ _ _ _ _ _ same => exact (race_fields same).1.trans responded

theorem advance_dropper {s s' : State H B} {t : Nat} (moved : Advance s t s') :
    s'.dropper = s.dropper := by
  cases moved <;> rfl

theorem advance_other_pc {s s' : State H B} {t u : Nat} (other : u ≠ t) (moved : Advance s t s') :
    s'.pc u = s.pc u := by
  cases moved <;> simp [other]

theorem advance_swap {s s' : State H B} {t : Nat} {c : Claimer H} (at_pc : s.pc t = .swap c)
    (moved : Advance s t s') : s'.resp.responded = true := by
  cases moved <;> simp_all

theorem step_drop_inv {ms : Nat} {s s' : State H B} {l : Label H B} (claim : ClaimInv s)
    (inv : DropInv s) (moved : Move ms s l s') : DropInv s' := by
  have kept := change_keeps_responded (step_head_change claim moved)
  intro u dropper
  cases moved with
  | step t s' moved =>
    rw [advance_dropper moved] at dropper
    rcases inv u dropper with at_pc | responded
    · by_cases eq : u = t
      · subst u; exact .inr (advance_swap at_pc moved)
      · exact .inl (by rw [advance_other_pc eq moved]; exact at_pc)
    · exact .inr (kept responded)
  | dropCtx t idle alive =>
    simp only [goto_dropper, Option.some.injEq] at dropper
    exact .inl (by simp [dropper])
  | _ =>
    rcases inv u dropper with at_pc | responded
    · left; grind -linarith
    · exact .inr (kept responded)

theorem reachable_drop_inv {ms : Nat} {s : State H B} (reached : Reachable (system H B ms) s) :
    DropInv s := by
  have both : ClaimInv s ∧ DropInv s := by
    refine reachable_invariant (fun s => ClaimInv s ∧ DropInv s) ?_ ?_ reached
    · rintro s rfl
      exact ⟨initial_claim_inv, by simp [DropInv, initial]⟩
    · rintro s t l ⟨claim, drop⟩ moved
      have moved := step_move moved
      exact ⟨change_claim_inv claim (step_head_change claim moved), step_drop_inv claim drop moved⟩
  exact both.2

theorem dropped_sender_gone {ms : Nat} {s : State H B} (reached : Reachable (system H B ms) s)
    (dropped : Dropped s) (none_claiming : NoneClaiming s) : s.resp.head.sender = false := by
  obtain ⟨t, r, dropper, at_pc⟩ := dropped
  have inv := reachable_claim_inv reached
  have responded : s.resp.responded = true := by
    rcases reachable_drop_inv reached t dropper with swap | responded
    · simp [at_pc] at swap
    · exact responded
  obtain ⟨w, won⟩ := inv.claimed responded
  refine inv.released w won ?_
  have quiet := none_claiming w
  cases at_w : s.pc w <;> simp_all [claiming, owning]

/-- The canned 500, or a head the app offered and the http builder accepts. -/
def Genuine (offered : List H) (r : Response H) : Prop :=
  r = response500 ∨ ∃ h ∈ offered, r = .full h ∨ r = .stream h

theorem genuine_mono {offered more : List H} {r : Response H} (genuine : Genuine offered r) :
    Genuine (offered ++ more) r := by
  rcases genuine with canned | ⟨h, member, eq⟩
  · exact .inl canned
  · exact .inr ⟨h, by simp [member], eq⟩

theorem genuine_none {r : Response H} (genuine : Genuine [] r) : r = response500 := by
  rcases genuine with canned | ⟨_, member, _⟩
  · exact canned
  · simp at member

def claimerHeads : Claimer H → List H
  | .response head => [head]
  | .streamHead builder => builder.toList
  | .backstop => []

def carries : Pc H B → List H
  | .swap c | .takeHead c | .holding c => claimerHeads c
  | .storeBody head | .sendStream head => [head]
  | _ => []

@[simp] theorem carries_lost (c : Claimer H) : carries (lost c : Pc H B) = [] := by
  cases c <;> rfl

@[simp] theorem carries_entry (c : Call H B) : carries c.entry = c.accepted := by
  rcases c with builder | builder | _ | _ | _ <;> try rfl
  all_goals cases builder <;> rfl

structure OfferInv (s : State H B) : Prop where
  carried : ∀ t, ∀ h ∈ carries (s.pc t), h ∈ s.offered
  sent : ∀ e ∈ s.heads, Genuine s.offered e.2
  answer : ∀ r, s.front = .answered r → Genuine s.offered r ∨ r = response504

theorem advance_offer_inv {s s' : State H B} {t : Nat} (inv : OfferInv s)
    (moved : Advance s t s') : OfferInv s' := by
  obtain ⟨carried, sent, answer⟩ := inv
  have own := carried t
  have others : ∀ p : Pc H B, (∀ h ∈ carries p, h ∈ s.offered) →
      ∀ u, ∀ h ∈ carries ((s.goto t p).pc u), h ∈ s.offered := by
    intro p ok u
    by_cases eq : u = t
    · simpa [eq] using ok
    · simpa [eq] using carried u
  have logged : ∀ r, Genuine s.offered r → ∀ e ∈ s.heads ++ [(t, r)], Genuine s.offered e.2 := by
    intro r genuine e member
    rcases List.mem_append.mp member with old | new
    · exact sent e old
    · simp only [List.mem_singleton] at new
      simpa [new] using genuine
  cases moved with
  | late c at_pc => exact ⟨others _ (by simp), sent, answer⟩
  | first c at_pc => exact ⟨others _ (by simpa [at_pc, carries] using own), sent, answer⟩
  | take c at_pc => exact ⟨others _ (by simpa [at_pc, carries] using own), sent, answer⟩
  | noSender c at_pc => exact ⟨others _ (by simp), sent, answer⟩
  | respond head at_pc =>
    simp only [at_pc, carries, claimerHeads, List.mem_singleton, forall_eq] at own
    exact ⟨others _ (by simp [carries]), logged _ (.inr ⟨head, own, .inl rfl⟩), answer⟩
  | canned at_pc => exact ⟨others _ (by simp [carries]), logged _ (.inl rfl), answer⟩
  | build head at_pc =>
    exact ⟨others _ (by simpa [at_pc, carries, claimerHeads] using own), sent, answer⟩
  | store head at_pc => exact ⟨others _ (by simpa [at_pc, carries] using own), sent, answer⟩
  | stream head at_pc =>
    simp only [at_pc, carries, List.mem_singleton, forall_eq] at own
    exact ⟨others _ (by simp [carries]), logged _ (.inr ⟨head, own, .inr rfl⟩), answer⟩
  | tick => exact ⟨carried, sent, answer⟩
  | _ => exact ⟨others _ (by simp [carries]), sent, answer⟩

theorem step_offer_inv {ms : Nat} {s s' : State H B} {l : Label H B} (claim : ClaimInv s)
    (inv : OfferInv s) (moved : Move ms s l s') : OfferInv s' := by
  cases moved with
  | step t s' moved => exact advance_offer_inv inv moved
  | call t c idle =>
    obtain ⟨carried, sent, answer⟩ := inv
    refine ⟨fun u h member => ?_, fun e member => genuine_mono (sent e member), fun r eq => ?_⟩
    · by_cases eq : u = t
      · simp [eq] at member
        simp [member]
      · simp [eq] at member
        simp [carried u h member]
    · exact (answer r eq).imp_left genuine_mono
  | interrupt t chunk at_pc =>
    obtain ⟨carried, sent, answer⟩ := inv
    refine ⟨fun u h member => ?_, sent, answer⟩
    by_cases eq : u = t <;> simp [eq, carries] at member
    exact carried u h member
  | dropCtx t idle =>
    obtain ⟨carried, sent, answer⟩ := inv
    refine ⟨fun u h member => ?_, sent, answer⟩
    by_cases eq : u = t <;> simp [eq, carries, claimerHeads] at member
    exact carried u h member
  | pollHead r waiting value =>
    refine ⟨inv.carried, inv.sent, fun r' eq => ?_⟩
    obtain ⟨e, member, same⟩ := List.mem_map.mp (claim.value_sent r value)
    cases eq
    exact .inl (same ▸ inv.sent e member)
  | pollClosed =>
    refine ⟨inv.carried, inv.sent, fun r eq => ?_⟩
    cases eq
    exact .inl (.inl rfl)
  | timeout =>
    refine ⟨inv.carried, inv.sent, fun r eq => ?_⟩
    cases eq
    exact .inr rfl
  | clientGone => exact ⟨inv.carried, inv.sent, by simp⟩
  | _ => exact ⟨inv.carried, inv.sent, inv.answer⟩

theorem reachable_offer_inv {ms : Nat} {s : State H B} (reached : Reachable (system H B ms) s) :
    OfferInv s := by
  have both : ClaimInv s ∧ OfferInv s := by
    refine reachable_invariant (fun s => ClaimInv s ∧ OfferInv s) ?_ ?_ reached
    · rintro s rfl
      exact ⟨initial_claim_inv, by constructor <;> simp [initial, carries]⟩
    · rintro s t l ⟨claim, offer⟩ moved
      have moved := step_move moved
      exact ⟨change_claim_inv claim (step_head_change claim moved), step_offer_inv claim offer moved⟩
  exact both.2

theorem answer_final {ms : Nat} {s s' : State H B} {l : Label H B} {r : Response H}
    (answered : s.front = .answered r) (moved : Move ms s l s') : s'.front = .answered r := by
  cases moved with
  | step t s' moved => cases moved <;> exact answered
  | pollHead _ waiting => simp [answered] at waiting
  | pollClosed waiting => simp [answered] at waiting
  | timeout waiting => simp [answered] at waiting
  | clientGone waiting => simp [answered] at waiting
  | _ => exact answered

/-- A front-end that still waits is answered at its next poll: with the head in
    the channel, or with its own 500 when the channel was closed without one. -/
theorem poll_answers {ms : Nat} {s : State H B} (waiting : s.front = .waiting)
    (closed : s.resp.head.sender = false) :
    ∃ s', step ms s .poll = some s' ∧
      s'.front = .answered (s.resp.head.value.getD response500) := by
  cases value : s.resp.head.value <;> simp [step, waiting, value, closed]

structure HeadOutcome (ms : Nat) (s : State H B) : Prop where
  at_most_one : s.heads.length ≤ 1
  only_winner_sends : ∀ e ∈ s.heads, s.winner = some e.1
  later_calls_keep_head : ∀ w t s', s.winner = some w → t ≠ w → step ms s (.step t) = some s' →
    s'.resp.head = s.resp.head ∧ s'.heads = s.heads ∧ s'.winner = some w
  settled : Dropped s → NoneClaiming s → s.resp.head.Settled
  wait_ends : Dropped s → NoneClaiming s → s.front = .waiting →
    ∃ r s', step ms s .poll = some s' ∧ s'.front = .answered r
  answer_is_one_of : ∀ r, s.front = .answered r → Genuine s.offered r ∨ r = response504
  answered_once : ∀ r l s', s.front = .answered r → step ms s l = some s' → s'.front = .answered r
  rejected_before_claim : ∀ t s', step ms s (.call t (.respondSimple none)) = some s' →
    s'.resp = s.resp ∧ s'.pc t = .done .invalidResponse
  rejected_after_claim : ∀ t s', s.pc t = .holding (.streamHead none) →
    step ms s (.step t) = some s' → s'.resp.head.sender = false ∧ s'.heads = s.heads
  rejected_gets_500 : s.offered = [] →
    (∀ e ∈ s.heads, e.2 = response500) ∧
    (∀ r, s.front = .answered r → r = response500 ∨ r = response504) ∧
    (Dropped s → NoneClaiming s → s.front = .waiting →
      ∃ s', step ms s .poll = some s' ∧ s'.front = .answered response500)

theorem one_head_answers_request {ms : Nat} {s : State H B}
    (reached : Reachable (system H B ms) s) : HeadOutcome ms s := by
  have claim := reachable_claim_inv reached
  have offer := reachable_offer_inv reached
  constructor
  case at_most_one => exact claim.once
  case only_winner_sends => exact claim.by_winner
  case later_calls_keep_head =>
    intro w t s' won other moved
    exact advance_other_keeps_head claim won other (advance_cases moved)
  case settled =>
    intro dropped quiet
    exact .inr (dropped_sender_gone reached dropped quiet)
  case wait_ends =>
    intro dropped quiet waiting
    obtain ⟨s', moved, answer⟩ := poll_answers waiting (dropped_sender_gone reached dropped quiet)
    exact ⟨_, s', moved, answer⟩
  case answer_is_one_of => exact offer.answer
  case answered_once =>
    intro r l s' answered moved
    exact answer_final answered (step_move moved)
  case rejected_before_claim =>
    intro t s' moved
    cases step_move moved
    simp [Call.entry]
  case rejected_after_claim =>
    intro t s' at_pc moved
    cases step_move moved with
    | step _ _ moved => cases moved <;> simp_all [Oneshot.dropSender]
  case rejected_gets_500 =>
    intro none_offered
    have sent : ∀ e ∈ s.heads, e.2 = response500 := fun e member =>
      genuine_none (none_offered ▸ offer.sent e member)
    refine ⟨sent, fun r answered => ?_, fun dropped quiet waiting => ?_⟩
    · exact (offer.answer r answered).imp_left fun genuine => genuine_none (none_offered ▸ genuine)
    · obtain ⟨s', moved, answer⟩ := poll_answers waiting (dropped_sender_gone reached dropped quiet)
      refine ⟨s', moved, ?_⟩
      cases value : s.resp.head.value with
      | none => simpa [value] using answer
      | some r =>
        obtain ⟨e, member, same⟩ := List.mem_map.mp (claim.value_sent r value)
        simpa [value, ← same, sent e member] using answer

/-- A streaming head the builder rejects, then the drop of the context. -/
theorem rejected_stream_head_is_a_500 :
    ∃ s : State Nat Nat, run (system Nat Nat 0) initial
      [.call 0 (.sendHeaders none), .step 0, .step 0, .step 0, .dropCtx 1, .step 1, .step 1] = some s ∧
      HeadOutcome 0 s ∧ Dropped s ∧ NoneClaiming s ∧ s.offered = [] ∧ s.front = .waiting := by
  have ran : ∃ s : State Nat Nat, run (system Nat Nat 0) initial
      [.call 0 (.sendHeaders none), .step 0, .step 0, .step 0, .dropCtx 1, .step 1, .step 1] = some s ∧
      Dropped s ∧ NoneClaiming s ∧ s.offered = [] ∧ s.front = .waiting := by
    refine ⟨_, rfl, ⟨1, .unit, rfl, rfl⟩, fun t => ?_, rfl, rfl⟩
    by_cases one : t = 1
    · subst t; rfl
    · by_cases zero : t = 0
      · subst t; rfl
      · simp [State.goto, one, zero, claiming, owning, initial]
  obtain ⟨s, ran, rest⟩ := ran
  exact ⟨s, ran, one_head_answers_request (reachable_run (.start rfl) ran), rest⟩

end KinoResponseRace
