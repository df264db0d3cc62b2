import Kino.Backstop

/-!
One `send_stream_head` and any number of `respond_500_if_unsent` calls on one responder
(ext/kino/src/response.rs), with the front-end that waits for the head and hyper that takes
the frames: is the response over when both kinds have returned?
-/
namespace KinoStreamAbort
open Transitions Channels KinoResponder KinoResponseRace KinoBackstop
variable {H B : Type}

/-- Call `h` is the one stream head; every other call is an abort. -/
def inPlay (h : Nat) : Label H B → Bool
  | .call t (.sendHeaders _) => t = h
  | .call t .respond500IfUnsent => t ≠ h
  | .call _ _ => false
  | .dropCtx t => t ≠ h
  | _ => true

def game (H B : Type) (ms h : Nat) : System (State H B) (Label H B) where
  start s := s = initial
  step s l := if inPlay h l then step ms s l else none

def Errored (s : State H B) : Prop :=
  abandonedFrame ∈ s.taken ++ s.resp.frames.buf ∨ s.resp.frames.receiver = false

def Aborted (s : State H B) : Prop :=
  (∃ t head, (t, Response.stream head) ∈ s.heads) ∧ s.resp.bodyTx = false ∧ Errored s

def Answered500 (s : State H B) : Prop :=
  (∃ t, (t, response500) ∈ s.heads) ∨ s.heads = [] ∧ s.resp.head.sender = false

def pending : Pc H B → Bool
  | .takeHead (.streamHead (some _)) | .holding (.streamHead (some _)) | .storeBody _
  | .takeHead .backstop | .holding .backstop => true
  | _ => false

def unsettled (s : State H B) : Bool := s.winner.elim false fun w => pending (s.pc w)

/-- No abort looks for the frame sender while the claim's winner is pending. -/
def timely (s : State H B) : Label H B → Bool
  | .step t =>
    match s.pc t with
    | .takeBody => !unsettled s
    | _ => true
  | _ => true

def stored : Pc H B → Bool
  | .sendStream _ | .done (.sent true) => true
  | _ => false

def headPc : Pc H B → Bool
  | .idle | .swap (.streamHead _) | .takeHead (.streamHead _) | .holding (.streamHead _)
  | .storeBody _ | .sendStream _ | .done (.sent _) | .done .invalidResponse => true
  | _ => false

def abortPc : Pc H B → Bool
  | .idle | .swap .backstop | .takeHead .backstop | .holding .backstop | .takeBody | .sendErr
  | .done .unit => true
  | _ => false

structure Roles (h : Nat) (s : State H B) : Prop where
  head : headPc (s.pc h) = true
  aborts : ∀ t, t ≠ h → abortPc (s.pc t) = true

inductive Play (h : Nat) (s : State H B) : Nat → State H B → Prop where
  | lose (builder : Option H) (at_pc : s.pc h = .swap (.streamHead builder))
      (taken : s.resp.responded = true) : Play h s h (s.goto h (.done (.sent false)))
  | claim (builder : Option H) (at_pc : s.pc h = .swap (.streamHead builder))
      (free : s.resp.responded = false) :
      Play h s h ({ s with resp.responded := true, winner := some h }.goto h
        (.takeHead (.streamHead builder)))
  | take (builder : Option H) (at_pc : s.pc h = .takeHead (.streamHead builder)) :
      Play h s h ({ s with resp.headTx := false }.goto h (.holding (.streamHead builder)))
  | reject (at_pc : s.pc h = .holding (.streamHead none)) :
      Play h s h ({ s with resp.head := s.resp.head.dropSender }.goto h (.done .invalidResponse))
  | build (head : H) (at_pc : s.pc h = .holding (.streamHead (some head))) :
      Play h s h ({ s with resp.frames := Chan.create _ _ }.goto h (.storeBody head))
  | store (head : H) (at_pc : s.pc h = .storeBody head) :
      Play h s h ({ s with resp.bodyTx := true }.goto h (.sendStream head))
  | stream (head : H) (at_pc : s.pc h = .sendStream head) :
      Play h s h ({ s with
        resp := KinoResponder.sendStream s.resp head
        heads := s.heads ++ [(h, Response.stream head)] }.goto h (.done (.sent true)))
  | abortLoses (t : Nat) (other : t ≠ h) (at_pc : s.pc t = .swap .backstop)
      (taken : s.resp.responded = true) : Play h s t (s.goto t .takeBody)
  | abortClaims (t : Nat) (other : t ≠ h) (at_pc : s.pc t = .swap .backstop)
      (free : s.resp.responded = false) :
      Play h s t ({ s with resp.responded := true, winner := some t }.goto t (.takeHead .backstop))
  | abortTakes (t : Nat) (other : t ≠ h) (at_pc : s.pc t = .takeHead .backstop) :
      Play h s t ({ s with resp.headTx := false }.goto t (.holding .backstop))
  | canned (t : Nat) (other : t ≠ h) (at_pc : s.pc t = .holding .backstop) :
      Play h s t ({ s with
        resp.head := (s.resp.head.send response500).2
        heads := s.heads ++ [(t, response500)] }.goto t (.done .unit))
  | takeBody (t : Nat) (other : t ≠ h) (at_pc : s.pc t = .takeBody) (present : s.resp.bodyTx = true) :
      Play h s t ({ s with resp.bodyTx := false, lock := some t }.goto t .sendErr)
  | noBody (t : Nat) (other : t ≠ h) (at_pc : s.pc t = .takeBody) (unlocked : s.lock = none)
      (missing : s.resp.bodyTx = false) : Play h s t (s.goto t (.done .unit))
  | abandon (t : Nat) (other : t ≠ h) (r : Responder H B) (at_pc : s.pc t = .sendErr)
      (sent : sendAbandoned s.resp = some r) :
      Play h s t ({ s with resp := r, lock := none }.goto t (.done .unit))

theorem advance_play {h t : Nat} {s s' : State H B} (claim : ClaimInv s) (roles : Roles h s)
    (moved : Advance s t s') : Play h s t s' := by
  by_cases eq : t = h
  · subst eq
    have role := roles.head
    cases moved with
    | late c at_pc taken =>
      rcases c with _ | builder | _ <;> simp [at_pc, headPc] at role
      exact .lose builder at_pc taken
    | first c at_pc free =>
      rcases c with _ | builder | _ <;> simp [at_pc, headPc] at role
      exact .claim builder at_pc free
    | take c at_pc present =>
      rcases c with _ | builder | _ <;> simp [at_pc, headPc] at role
      exact .take builder at_pc
    | noSender c at_pc missing => simp [claim.in_slot t c at_pc] at missing
    | reject at_pc => exact .reject at_pc
    | build head at_pc => exact .build head at_pc
    | store head at_pc => exact .store head at_pc
    | stream head at_pc => exact .stream head at_pc
    | _ => simp_all [headPc]
  · have role := roles.aborts t eq
    cases moved with
    | late c at_pc taken =>
      rcases c with _ | _ | _ <;> simp [at_pc, abortPc] at role
      exact .abortLoses t eq at_pc taken
    | first c at_pc free =>
      rcases c with _ | _ | _ <;> simp [at_pc, abortPc] at role
      exact .abortClaims t eq at_pc free
    | take c at_pc present =>
      rcases c with _ | _ | _ <;> simp [at_pc, abortPc] at role
      exact .abortTakes t eq at_pc
    | noSender c at_pc missing => simp [claim.in_slot t c at_pc] at missing
    | canned at_pc => exact .canned t eq at_pc
    | takeBody at_pc _ present => exact .takeBody t eq at_pc present
    | noBody at_pc unlocked missing => exact .noBody t eq at_pc unlocked missing
    | abandon r at_pc sent => exact .abandon t eq r at_pc sent
    | _ => simp_all [abortPc]

theorem play_roles {h t : Nat} {s s' : State H B} (roles : Roles h s) (moved : Play h s t s') :
    Roles h s' := by
  obtain ⟨head, aborts⟩ := roles
  cases moved <;> constructor <;> grind -linarith [headPc, abortPc]

structure ClaimLog (h : Nat) (s : State H B) : Prop where
  behind : ∀ t, s.pc t = .takeBody → s.resp.responded = true
  won : s.winner = some h → owning (s.pc h) = true ∨ s.pc h = .done (.sent true) ∨
    s.pc h = .done .invalidResponse
  canned : ∀ w, s.winner = some w → w ≠ h → owning (s.pc w) = true ∨ (w, response500) ∈ s.heads
  rejected : s.pc h = .done .invalidResponse → s.winner = some h ∧ s.heads = []
  streamed : s.pc h = .done (.sent true) → ∃ head, (h, Response.stream head) ∈ s.heads

structure FrameLog (h : Nat) (s : State H B) : Prop where
  opened : s.resp.bodyTx = true → stored (s.pc h) = true
  aborting : ∀ t, s.pc t = .sendErr → stored (s.pc h) = true
  ended : stored (s.pc h) = true → s.resp.bodyTx = false → s.lock ≠ none ∨ Errored s

@[grind =] theorem errored_goto (s : State H B) (t : Nat) (p : Pc H B) :
    Errored (s.goto t p) ↔ Errored s := .rfl

theorem errored_mono {s s' : State H B} (errored : Errored s)
    (frames : abandonedFrame ∈ s.taken ++ s.resp.frames.buf →
      abandonedFrame ∈ s'.taken ++ s'.resp.frames.buf)
    (gone : s.resp.frames.receiver = false → s'.resp.frames.receiver = false) : Errored s' :=
  errored.imp frames gone

theorem sendStream_frames (r : Responder H B) (head : H) :
    (sendStream r head).bodyTx = r.bodyTx ∧
    (sendStream r head).frames.buf = r.frames.buf ∧
    (r.frames.receiver = false → (sendStream r head).frames.receiver = false) := by
  unfold sendStream
  split <;> simp [Chan.dropReceiver]

theorem sendAbandoned_errors {r r' : Responder H B} (sent : sendAbandoned r = some r') :
    abandonedFrame ∈ r'.frames.buf ∨ r'.frames.receiver = false := by
  unfold sendAbandoned at sent
  rcases Chan.trySend_cases r.frames abandonedFrame with ⟨gone, eq⟩ | ⟨_, room, eq⟩ | ⟨_, eq⟩
  · simp only [eq, Option.some.injEq] at sent
    subst sent
    simp [Chan.dropSender, gone]
  · simp only [eq, Option.some.injEq] at sent
    subst sent
    simp [Chan.dropSender, Chan.push]
  · simp [eq] at sent

theorem play_heads {h t : Nat} {s s' : State H B} (moved : Play h s t s') :
    ∃ sent, s'.heads = s.heads ++ sent := by
  cases moved with
  | stream head => exact ⟨[(h, .stream head)], rfl⟩
  | canned t => exact ⟨[(t, response500)], rfl⟩
  | _ => exact ⟨[], by simp⟩

theorem play_behind {h t : Nat} {s s' : State H B}
    (behind : ∀ u, s.pc u = .takeBody → s.resp.responded = true) (moved : Play h s t s') :
    ∀ u, s'.pc u = .takeBody → s'.resp.responded = true := by
  cases moved with
  | abandon t other r at_pc sent =>
    have keeps := sendAbandoned_keeps sent
    grind -linarith
  | stream head at_pc =>
    have keeps := sendStream_race s.resp head
    grind -linarith
  | _ => grind -linarith

theorem play_won {h t : Nat} {s s' : State H B}
    (won : s.winner = some h → owning (s.pc h) = true ∨ s.pc h = .done (.sent true) ∨
      s.pc h = .done .invalidResponse) (moved : Play h s t s') :
    s'.winner = some h → owning (s'.pc h) = true ∨ s'.pc h = .done (.sent true) ∨
      s'.pc h = .done .invalidResponse := by
  cases moved <;> grind -linarith [owning]

theorem play_canned {h t : Nat} {s s' : State H B}
    (canned : ∀ w, s.winner = some w → w ≠ h → owning (s.pc w) = true ∨ (w, response500) ∈ s.heads)
    (moved : Play h s t s') :
    ∀ w, s'.winner = some w → w ≠ h → owning (s'.pc w) = true ∨ (w, response500) ∈ s'.heads := by
  intro w won other
  have before := canned w
  cases moved <;> grind -linarith [owning]

theorem play_rejected {h t : Nat} {s s' : State H B} (claim : ClaimInv s)
    (rejected : s.pc h = .done .invalidResponse → s.winner = some h ∧ s.heads = [])
    (moved : Play h s t s') :
    s'.pc h = .done .invalidResponse → s'.winner = some h ∧ s'.heads = [] := by
  have sole := claim.sole
  have unclaimed := claim.unclaimed
  cases moved <;> grind -linarith [owning]

theorem play_streamed {h t : Nat} {s s' : State H B}
    (streamed : s.pc h = .done (.sent true) → ∃ head, (h, Response.stream head) ∈ s.heads)
    (moved : Play h s t s') :
    s'.pc h = .done (.sent true) → ∃ head, (h, Response.stream head) ∈ s'.heads := by
  cases moved <;> grind -linarith

theorem play_claim_log {h t : Nat} {s s' : State H B} (claim : ClaimInv s) (log : ClaimLog h s)
    (moved : Play h s t s') : ClaimLog h s' :=
  ⟨play_behind log.behind moved, play_won log.won moved, play_canned log.canned moved,
    play_rejected claim log.rejected moved, play_streamed log.streamed moved⟩

theorem play_opened {h t : Nat} {s s' : State H B}
    (opened : s.resp.bodyTx = true → stored (s.pc h) = true) (moved : Play h s t s') :
    s'.resp.bodyTx = true → stored (s'.pc h) = true := by
  cases moved with
  | abandon t other r at_pc sent =>
    have keeps := sendAbandoned_keeps sent
    grind -linarith
  | stream head at_pc => grind -linarith [stored]
  | _ => grind -linarith [stored]

theorem play_aborting {h t : Nat} {s s' : State H B} (log : FrameLog h s) (moved : Play h s t s') :
    ∀ u, s'.pc u = .sendErr → stored (s'.pc h) = true := by
  have opened := log.opened
  have aborting := log.aborting
  cases moved <;> grind -linarith [stored]

theorem play_ended {h t : Nat} {s s' : State H B} (log : FrameLog h s) (moved : Play h s t s') :
    stored (s'.pc h) = true → s'.resp.bodyTx = false → s'.lock ≠ none ∨ Errored s' := by
  have ended := log.ended
  cases moved with
  | abandon t other r at_pc sent =>
    have errored := sendAbandoned_errors sent
    grind -linarith [Errored]
  | stream head at_pc =>
    have frames := sendStream_frames s.resp head
    grind -linarith [Errored, stored]
  | _ => grind -linarith [Errored, stored]

theorem play_frame_log {h t : Nat} {s s' : State H B} (log : FrameLog h s)
    (moved : Play h s t s') : FrameLog h s' :=
  ⟨play_opened log.opened moved, play_aborting log moved, play_ended log moved⟩

inductive Settled (h : Nat) (s : State H B) : Prop where
  | canned (t : Nat) (sent : (t, response500) ∈ s.heads)
  | rejecting (c : s.pc h = .takeHead (.streamHead none) ∨ s.pc h = .holding (.streamHead none))
  | rejected (raised : s.pc h = .done .invalidResponse)
  | aborted (opened : stored (s.pc h) = true) (closed : s.resp.bodyTx = false) (errored : Errored s)

theorem play_keeps_rejection {h t : Nat} {s s' : State H B}
    (at_h : s.pc h = .takeHead (.streamHead none) ∨ s.pc h = .holding (.streamHead none))
    (moved : Play h s t s') : Settled h s' := by
  have after : (s'.pc h = .takeHead (.streamHead none) ∨ s'.pc h = .holding (.streamHead none)) ∨
      s'.pc h = .done .invalidResponse := by
    cases moved <;> grind -linarith
  rcases after with still | raised
  · exact .rejecting still
  · exact .rejected raised

theorem play_keeps_abort {h t : Nat} {s s' : State H B} (opened : stored (s.pc h) = true)
    (closed : s.resp.bodyTx = false) (errored : Errored s) (moved : Play h s t s') :
    Settled h s' := by
  cases moved with
  | stream head at_pc =>
    obtain ⟨body, buf, receiver⟩ := sendStream_frames s.resp head
    exact .aborted (by simp [stored]) (body.trans closed)
      (errored_mono errored (by simp [buf]) receiver)
  | abandon t other r at_pc sent =>
    have open_still : stored ((s.goto t (.done .unit)).pc h) = true := by simpa [Ne.symm other]
    exact .aborted open_still ((sendAbandoned_keeps sent).2.2.2.trans closed)
      ((sendAbandoned_errors sent).imp_left (by simp +contextual))
  | lose | claim | take | reject | build | store => simp_all [stored]
  | takeBody t other at_pc present => simp [closed] at present
  | abortLoses t other | abortClaims t other | abortTakes t other | canned t other
  | noBody t other => exact .aborted (by simpa [Ne.symm other]) closed errored

theorem play_keeps_settled {h t : Nat} {s s' : State H B} (settled : Settled h s)
    (moved : Play h s t s') : Settled h s' := by
  cases settled with
  | canned u sent =>
    obtain ⟨more, grown⟩ := play_heads moved
    exact .canned u (by simp [grown, sent])
  | rejecting at_h => exact play_keeps_rejection at_h moved
  | rejected raised =>
    apply Settled.rejected
    cases moved <;> grind -linarith
  | aborted opened closed errored => exact play_keeps_abort opened closed errored moved

theorem published_head {p : Pc H B} (role : headPc p = true) (own : owning p = true)
    (published : pending p = false) :
    (p = .takeHead (.streamHead none) ∨ p = .holding (.streamHead none)) ∨ stored p = true := by
  cases p with
  | takeHead c | holding c =>
    rcases c with _ | builder | _ <;> simp [headPc] at role
    cases builder <;> simp_all [pending]
  | _ => simp_all [owning, pending, stored]

theorem published_abort {p : Pc H B} (role : abortPc p = true) (own : owning p = true) :
    pending p = true := by
  cases p with
  | takeHead c | holding c => cases c <;> simp_all [abortPc, pending]
  | _ => simp_all [owning, abortPc]

/-- An abort that comes in time and finds no frame sender has nothing left to end. -/
theorem no_body_settled {h t : Nat} {s : State H B} (claim : ClaimInv s) (roles : Roles h s)
    (claims : ClaimLog h s) (frames : FrameLog h s) (time : timely s (.step t) = true)
    (at_pc : s.pc t = .takeBody) (unlocked : s.lock = none) (missing : s.resp.bodyTx = false) :
    Settled h s := by
  have opened_settled : stored (s.pc h) = true → Settled h s := by
    intro opened
    exact .aborted opened missing ((frames.ended opened missing).resolve_left (by simp [unlocked]))
  have published : unsettled s = false := by simpa [timely, at_pc] using time
  obtain ⟨w, won⟩ := claim.claimed (claims.behind t at_pc)
  simp only [unsettled, won, Option.elim_some] at published
  by_cases eq : w = h
  · subst w
    rcases claims.won won with own | sent | raised
    · exact (published_head roles.head own published).elim .rejecting opened_settled
    · exact opened_settled (by simp [sent, stored])
    · exact .rejected raised
  · rcases claims.canned w won eq with own | sent
    · simp [published_abort (roles.aborts w eq) own] at published
    · exact .canned w sent

structure StreamInv (h : Nat) (s : State H B) : Prop where
  roles : Roles h s
  claims : ClaimLog h s
  frames : FrameLog h s
  settled : ∀ t, t ≠ h → s.pc t = .done .unit → Settled h s

theorem initial_stream_inv (h : Nat) : StreamInv h (initial : State H B) := by
  refine ⟨?_, ?_, ?_, ?_⟩
  · constructor <;> simp [initial, headPc, abortPc]
  · constructor <;> simp [initial]
  · constructor <;> simp [initial, new, stored]
  · simp [initial]

theorem advance_stream_inv {h t : Nat} {s s' : State H B} (claim : ClaimInv s) (locks : LockInv s)
    (inv : StreamInv h s) (time : timely s (.step t) = true) (moved : Advance s t s') :
    StreamInv h s' := by
  obtain ⟨roles, claims, frames, settled⟩ := inv
  have play := advance_play claim roles moved
  refine ⟨play_roles roles play, play_claim_log claim claims play, play_frame_log frames play, ?_⟩
  intro u other returned
  by_cases before : s.pc u = .done .unit
  · exact play_keeps_settled (settled u other before) play
  · have mover : u = t := by
      by_contra ne
      rw [advance_other_pc ne moved] at returned
      exact before returned
    subst mover
    cases play with
    | canned u _ at_pc => exact .canned u (by simp)
    | noBody u _ at_pc unlocked missing =>
      have now := no_body_settled claim roles claims frames time at_pc unlocked missing
      exact play_keeps_settled now (.noBody u other at_pc unlocked missing)
    | abandon u _ r at_pc sent =>
      have closed := locks.body_taken (by simp [(locks.owner u).mpr at_pc])
      have opened := frames.aborting u at_pc
      exact .aborted (by simpa [Ne.symm other] using opened)
        ((sendAbandoned_keeps sent).2.2.2.trans closed)
        ((sendAbandoned_errors sent).imp_left (by simp +contextual))
    | _ => simp_all

theorem outside_stream_inv {h : Nat} {s s' : State H B} (inv : StreamInv h s) (pcs : s'.pc = s.pc)
    (winner : s'.winner = s.winner) (heads : s'.heads = s.heads) (lock : s'.lock = s.lock)
    (responded : s'.resp.responded = s.resp.responded) (body : s'.resp.bodyTx = s.resp.bodyTx)
    (errored : Errored s → Errored s') : StreamInv h s' := by
  obtain ⟨⟨head, aborts⟩, claims, ⟨opened, aborting, ended⟩, settled⟩ := inv
  obtain ⟨behind, won, canned, rejected, streamed⟩ := claims
  refine ⟨⟨by rwa [pcs], by rwa [pcs]⟩, ?_, ?_, ?_⟩
  · constructor <;> simpa only [pcs, winner, heads, responded]
  · refine ⟨by simpa only [pcs, body], by simpa only [pcs], ?_⟩
    rw [pcs, body, lock]
    exact fun stands closed => (ended stands closed).imp_right errored
  · intro t other returned
    rw [pcs] at returned
    cases settled t other returned with
    | canned u sent => exact .canned u (by rwa [heads])
    | rejecting at_h => exact .rejecting (by rwa [pcs])
    | rejected raised => exact .rejected (by rwa [pcs])
    | aborted stands closed now => exact .aborted (by rwa [pcs]) (by rwa [body]) (errored now)

theorem enter_settled {h t : Nat} {s : State H B} {c : Claimer H} (idle : s.pc t = .idle)
    (settled : Settled h s) : Settled h (s.goto t (.swap c)) := by
  have same : s.pc h ≠ .idle → (s.goto t (.swap c)).pc h = s.pc h := by
    intro under_way
    have other : h ≠ t := by rintro rfl; exact under_way idle
    simp [other]
  cases settled with
  | canned u sent => exact .canned u sent
  | rejecting at_h => exact .rejecting (by rwa [same (by rintro eq; simp [eq] at at_h)])
  | rejected raised => exact .rejected (by rwa [same (by simp [raised])])
  | aborted opened closed errored =>
    exact .aborted (by rwa [same (by rintro eq; simp [eq, stored] at opened)]) closed errored

theorem enter_stream_inv {h t : Nat} {s : State H B} {c : Claimer H} (inv : StreamInv h s)
    (idle : s.pc t = .idle) (head : t = h → headPc (.swap c : Pc H B) = true)
    (abort : t ≠ h → abortPc (.swap c : Pc H B) = true) : StreamInv h (s.goto t (.swap c)) := by
  obtain ⟨⟨role, aborts⟩, claims, ⟨opened, aborting, ended⟩, settled⟩ := inv
  obtain ⟨behind, won, canned, rejected, streamed⟩ := claims
  refine ⟨?_, ?_, ?_, ?_⟩
  · constructor <;> grind -linarith
  · constructor <;> grind -linarith [owning]
  · constructor <;> grind -linarith [stored]
  · intro u other returned
    refine enter_settled idle (settled u other ?_)
    grind -linarith

theorem dropHeadRx_errored {s : State H B} (front : Front H) (errored : Errored s) :
    Errored { s with front := front, resp := dropHeadRx s.resp } := by
  unfold dropHeadRx
  split
  · exact .inr rfl
  · exact errored

theorem step_stream_inv {ms h : Nat} {s s' : State H B} {l : Label H B} (claim : ClaimInv s)
    (locks : LockInv s) (inv : StreamInv h s) (playing : inPlay h l = true)
    (time : timely s l = true) (moved : Move ms s l s') : StreamInv h s' := by
  have released := dropHeadRx_race s.resp
  cases moved with
  | step t s' moved => exact advance_stream_inv claim locks inv time moved
  | call t c idle =>
    have kept : StreamInv h { s with offered := s.offered ++ c.accepted } :=
      outside_stream_inv inv rfl rfl rfl rfl rfl rfl id
    rcases c with _ | builder | _ | _ | _ <;> simp [inPlay] at playing
    · exact enter_stream_inv kept idle (fun _ => rfl) (absurd playing)
    · exact enter_stream_inv kept idle (fun eq => absurd eq playing) (fun _ => rfl)
  | interrupt t chunk at_pc =>
    by_cases eq : t = h
    · have := inv.roles.head
      simp [← eq, at_pc, headPc] at this
    · have := inv.roles.aborts t eq
      simp [at_pc, abortPc] at this
  | dropCtx t idle =>
    have kept : StreamInv h { s with dropper := some t } :=
      outside_stream_inv inv rfl rfl rfl rfl rfl rfl id
    simp only [inPlay, decide_eq_true_eq] at playing
    exact enter_stream_inv kept idle (fun eq => absurd eq playing) (fun _ => rfl)
  | timeout | clientGone =>
    exact outside_stream_inv inv rfl rfl rfl rfl released.1 released.2.2.2 (dropHeadRx_errored _)
  | recvFrame head f rest _ _ queued =>
    refine outside_stream_inv inv rfl rfl rfl rfl rfl rfl fun errored => ?_
    exact errored_mono errored (by simp [queued, Chan.pop]) id
  | dropStream => exact outside_stream_inv inv rfl rfl rfl rfl rfl rfl fun _ => .inr rfl
  | pollHead | pollClosed => exact outside_stream_inv inv rfl rfl rfl rfl rfl rfl id

theorem game_step {ms h : Nat} {s s' : State H B} {l : Label H B}
    (moved : (game H B ms h).step s l = some s') :
    inPlay h l = true ∧ (system H B ms).step s l = some s' := by
  simp only [game] at moved
  split at moved
  · exact ⟨‹_›, moved⟩
  · cases moved

theorem game_reachable {ms h : Nat} {s : State H B} {allowed : State H B → Label H B → Prop}
    (reached : ReachableBy (game H B ms h) allowed s) : Reachable (system H B ms) s := by
  induction reached with
  | start initial => exact .start initial
  | next _ _ moved ih => exact reachable_step ih (game_step moved).2

theorem reachable_stream_inv {ms h : Nat} {s : State H B}
    (reached : ReachableBy (game H B ms h) (fun s l => timely s l = true) s) : StreamInv h s := by
  induction reached with
  | start initial => cases initial; exact initial_stream_inv h
  | next before time moved ih =>
    obtain ⟨playing, moved⟩ := game_step moved
    have whole := game_reachable before
    exact step_stream_inv (reachable_claim_inv whole) (reachable_lock_inv whole) ih playing time
      (step_move moved)

def Over (s : State H B) : Prop := s.resp.bodyTx = false ∧ (Answered500 s ∨ Aborted s)

theorem finished_over {h : Nat} {s : State H B} {r : Ret} (claim : ClaimInv s)
    (inv : StreamInv h s) (finished : s.pc h = .done r) (settled : Settled h s) : Over s := by
  have streamed : stored (s.pc h) = true → ∃ head, (h, Response.stream head) ∈ s.heads := by
    intro opened
    apply inv.claims.streamed
    rw [finished] at opened ⊢
    cases r with
    | sent ok => cases ok <;> simp_all [stored]
    | _ => simp [stored] at opened
  cases settled with
  | canned t sent =>
    refine ⟨?_, .inl (.inl ⟨t, sent⟩)⟩
    by_contra live
    obtain ⟨head, other⟩ := streamed (inv.frames.opened (by simpa using live))
    have once := claim.once
    match heads : s.heads with
    | [] => simp [heads] at sent
    | [e] =>
      simp only [heads, List.mem_singleton] at sent other
      simp [← sent, response500, plainResponse] at other
    | _ :: _ :: _ => simp [heads] at once
  | rejecting at_h => simp [finished] at at_h
  | rejected raised =>
    obtain ⟨won, heads⟩ := inv.claims.rejected raised
    have gone := claim.released h won (by simp [raised, owning])
    refine ⟨?_, .inl (.inr ⟨heads, gone⟩)⟩
    by_contra live
    obtain ⟨head, sent⟩ := streamed (inv.frames.opened (by simpa using live))
    simp [heads] at sent
  | aborted opened closed errored =>
    obtain ⟨head, sent⟩ := streamed opened
    exact ⟨closed, .inr ⟨⟨h, head, sent⟩, closed, errored⟩⟩

/-- As long as no abort looks for the frame sender too early, an abort is final. -/
theorem abort_final {ms h t : Nat} {s : State H B} {r : Ret}
    (reached : ReachableBy (game H B ms h) (fun s l => timely s l = true) s) (other : t ≠ h)
    (returned : s.pc t = .done .unit) (finished : s.pc h = .done r) : Over s := by
  have inv := reachable_stream_inv reached
  exact finished_over (reachable_claim_inv (game_reachable reached)) inv finished
    (inv.settled t other returned)

def abortedInTime : List (Label Nat Nat) :=
  [.call 0 (.sendHeaders (some 200)), .step 0, .step 0, .step 0, .step 0,
    .call 1 .respond500IfUnsent, .step 1, .step 1, .step 1, .step 0]

theorem aborted_stream_over :
    ∃ s, run (game Nat Nat 0 0) initial abortedInTime = some s ∧ s.heads = [(0, .stream 200)] ∧
      Over s := by
  have ran : ∃ s, runBy (game Nat Nat 0 0) timely initial abortedInTime = some s ∧
      run (game Nat Nat 0 0) initial abortedInTime = some s ∧ s.heads = [(0, .stream 200)] ∧
      s.pc 1 = .done .unit ∧ s.pc 0 = .done (.sent true) := ⟨_, rfl, rfl, rfl, rfl, rfl⟩
  obtain ⟨s, checked, ran, heads, returned, finished⟩ := ran
  exact ⟨s, ran, heads, abort_final (reachable_runBy (fun _ _ => id) (.start rfl) checked)
    (by decide) returned finished⟩

def abortedEarly : List (Label Nat Nat) :=
  [.call 0 (.sendHeaders (some 200)), .step 0, .step 0,
    .call 1 .respond500IfUnsent, .step 1, .step 1, .step 0, .step 0, .step 0]

theorem early_abort_leaves_stream_open :
    ∃ s, Reachable (game Nat Nat 0 0) s ∧ s.pc 1 = .done .unit ∧ s.pc 0 = .done (.sent true) ∧
      ¬ Over s ∧ ∃ s', run (system Nat Nat 0) s [.call 2 (.writeChunk 7), .step 2, .step 2] = some s' ∧
        s'.pc 2 = .done .unit ∧ s'.resp.frames.buf = [.data 7] := by
  have ran : ∃ s, run (game Nat Nat 0 0) initial abortedEarly = some s ∧
      s.pc 1 = .done .unit ∧ s.pc 0 = .done (.sent true) ∧ s.resp.bodyTx = true ∧
      ∃ s', run (system Nat Nat 0) s [.call 2 (.writeChunk 7), .step 2, .step 2] = some s' ∧
        s'.pc 2 = .done .unit ∧ s'.resp.frames.buf = [.data 7] :=
    ⟨_, rfl, rfl, rfl, rfl, _, rfl, rfl, rfl⟩
  obtain ⟨s, ran, returned, finished, live, written⟩ := ran
  exact ⟨s, reachable_run (.start rfl) ran, returned, finished, by simp [Over, live], written⟩

end KinoStreamAbort
