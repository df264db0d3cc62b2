import Kino.Programs
import Kino.Exploration

/-!
The shareability doctor (lib/kino/check.rb). A heap is what Ruby says about its objects. The
doctor asks them by methods of their own: a BasicObject has none of these, and a class may have
its own, which raises. An object answers alike each time. How a hash or an array is gone through,
and `instance_variable_get`, are Ruby's. The walk may meet any number of objects, in cycles too,
and stops by its own budget, if the stack lasts.
-/
namespace KinoCheck
open Programs Exploration

/-- A bare `rescue` takes only the standard errors. -/
structure Exn where
  standard : Bool
  message : String
  deriving DecidableEq, Repr

def stackError : Exn := ⟨false, "stack level too deep"⟩

abbrev Obj := Nat

structure Binding where
  receiver : Obj
  locals : List (String × Obj)

/-- What the walk distinguishes; the binding of a native proc cannot be had. -/
inductive Kind where
  | module
  | proc (sourceLocation : Option (String × Nat)) (binding : Option Binding)
  | hash (pairs : List (Obj × Obj))
  | array (values : List Obj)
  | other

inductive Klass where
  | module
  | proc
  | hash
  | array
  deriving DecidableEq, Repr

/-- `kind` is what `case` finds, `isA` what the object answers. `fits` says whether the stack
    holds a call of `walk` at this path with all that the call asks, `Ractor.shareable?` included. -/
structure Heap where
  kind : Obj → Kind
  shareable : Obj → Bool
  isA : Obj → Klass → Except Exn Bool
  frozen : Obj → Except Exn Bool
  ivars : Obj → Except Exn (List (String × Obj))
  inspect : Obj → Except Exn String
  className : Obj → Except Exn String
  fits : String → Obj → Bool

def MAX_FINDINGS : Nat := 20
def MAX_NODES : Nat := 5000

structure Finding where
  path : String
  message : String
  deriving DecidableEq, Repr

/-- `nodes` is the budget's counter. -/
structure State where
  findings : List Finding
  seen : List Obj
  nodes : Nat

def initial : State := ⟨[], [], 0⟩

structure Report where
  shareable : Bool
  findings : List Finding
  deriving DecidableEq, Repr

/-- `x || y`. -/
def either (x y : Except Exn Bool) : Except Exn Bool := x.bind fun b => if b then .ok true else y

/-- `x && y`. -/
def both (x y : Except Exn Bool) : Except Exn Bool := x.bind fun b => if b then y else .ok false

def negate (x : Except Exn Bool) : Except Exn Bool := x.map fun b => !b

variable (h : Heap)

def described (obj : Obj) : Except Exn String :=
  (h.inspect obj).bind fun inspected => (h.className obj).map fun name =>
    (if 60 < inspected.length then String.ofList (inspected.toList.take 60) ++ "..." else inspected) ++
      " (" ++ name ++ ")"

/-- The class is asked for in the `rescue` too. -/
def brief (obj : Obj) : Except Exn String := match described h obj with
  | .ok text => .ok text
  | .error e =>
    if e.standard then (h.className obj).map fun name => "#<" ++ name ++ ">" else .error e

def unshareableNote (obj : Obj) : Except Exn String :=
  (h.frozen obj).bind fun frozen => (brief h obj).map fun text =>
    if frozen then text ++ " is frozen but holds unshareable contents" else text ++ " is not frozen"

def record (finding : Finding) : Prog Exn State Unit :=
  update fun s => { s with findings := s.findings ++ [finding] }

def note (finding : Except Exn Finding) : Prog Exn State Unit := fromExcept finding >>= record

def noteIf (due : Except Exn Bool) (finding : Except Exn Finding) : Prog Exn State Unit :=
  fromExcept due >>= fun due => onlyIf due (note finding)

def unlessFull (p : Prog Exn State Unit) : Prog Exn State Unit := fun s =>
  if MAX_FINDINGS ≤ s.findings.length then (.ok (), s) else p s

/-- The loop that `scan_ivars`, `scan_proc` and `scan_module` have: pass over what is shareable,
    and break off when there are findings enough. -/
def eachUnshareable (visit : String → Obj → Prog Exn State Unit) :
    List (String × Obj) → Prog Exn State Unit
  | [] => pure ()
  | (name, value) :: rest =>
    if h.shareable value then eachUnshareable visit rest
    else do
      visit name value
      unlessFull (eachUnshareable visit rest)

def ivarFinding (path : String) (name : String) (value : Obj) : Except Exn Finding :=
  (unshareableNote h value).map fun text => ⟨path ++ "." ++ name, text⟩

def notFrozenFinding (path : String) (obj : Obj) : Except Exn Finding :=
  (h.className obj).map fun name => ⟨path, name ++ " instance is not frozen"⟩

def leafFinding (path : String) (obj : Obj) : Except Exn Finding :=
  (unshareableNote h obj).map fun text => ⟨path, text⟩

def procWhere (location : Option (String × Nat)) : String := match location with
  | some (file, line) => file ++ ":" ++ toString line
  | none => "native"

def procPath (path : String) (location : Option (String × Nat)) : String :=
  path ++ " (Proc at " ++ procWhere location ++ ")"

def receiverFinding (path : String) (location : Option (String × Nat)) (receiver : Obj) :
    Except Exn Finding :=
  (brief h receiver).map fun text =>
    ⟨procPath path location, "self is not shareable: " ++ text ++ " — use Ractor.shareable_proc"⟩

def captureFinding (path : String) (location : Option (String × Nat)) (name : String) (value : Obj) :
    Except Exn Finding :=
  (brief h value).map fun text =>
    ⟨procPath path location, "captures `" ++ name ++ "` = " ++ text ++ " (unshareable)"⟩

def moduleFinding (path : String) (name : String) (value : Obj) : Except Exn Finding :=
  (brief h value).map fun text =>
    ⟨path ++ "." ++ name, "class-level ivar holds " ++ text ++
      " — classes pass Ractor.shareable?, but reading this from a worker ractor " ++
      "raises Ractor::IsolationError on the first request"⟩

def ivarLabel (name : String) : String := "." ++ name
def keyLabel (key : String) : String := " key " ++ key
def valueLabel (key : String) : String := "[" ++ key ++ "]"
def indexLabel (index : Nat) : String := "[" ++ toString index ++ "]"
def captureLabel (name : String) : String := " capture `" ++ name ++ "`"

/-- `!(obj.frozen? || obj.is_a?(Proc) || obj.is_a?(Module))` -/
def loose (obj : Obj) : Except Exn Bool :=
  negate (either (h.frozen obj) (either (h.isA obj .proc) (h.isA obj .module)))

/-- Neither guard of `report_leaf` returns. -/
def bare (obj : Obj) : Except Exn Bool :=
  negate (either
    (either ((h.ivars obj).map fun list => !list.isEmpty) (h.isA obj .proc))
    (both (either (h.isA obj .hash) (h.isA obj .array)) (negate (h.frozen obj))))

section Scans
variable (walk : Obj → String → Prog Exn State Unit) (obj : Obj) (path : String)

def scanIvars : Prog Exn State Unit := do
  let list ← fromExcept (h.ivars obj)
  eachUnshareable h (fun name value => do
    note (ivarFinding h path name value)
    walk value (path ++ ivarLabel name)) list
  noteIf (loose h obj) (notFrozenFinding h path obj)

def scanProc (location : Option (String × Nat)) (binding : Option Binding) : Prog Exn State Unit :=
  match binding with
  | none => pure ()
  | some b => do
    noteIf (.ok !h.shareable b.receiver) (receiverFinding h path location b.receiver)
    eachUnshareable h (fun name value => do
      note (captureFinding h path location name value)
      walk value (path ++ captureLabel name)) b.locals

def reportLeaf : Prog Exn State Unit := noteIf (bare h obj) (leafFinding h path obj)

/-- The key is inspected for each of the two paths. -/
def walkPair (pair : Obj × Obj) : Prog Exn State Unit := do
  let key ← fromExcept (h.inspect pair.1)
  walk pair.1 (path ++ keyLabel key)
  let key ← fromExcept (h.inspect pair.1)
  walk pair.2 (path ++ valueLabel key)

/-- The `case` of `walk`. -/
def scanObject : Prog Exn State Unit := match h.kind obj with
  | .proc location binding => scanProc h walk path location binding
  | .hash pairs => do
    scanIvars h walk obj path
    pairs.forM (walkPair h walk path)
    reportLeaf h obj path
  | .array values => do
    scanIvars h walk obj path
    values.zipIdx.forM fun v => walk v.1 (path ++ indexLabel v.2)
    reportLeaf h obj path
  | .module | .other => do
    scanIvars h walk obj path
    reportLeaf h obj path

end Scans

def State.enter (s : State) (obj : Obj) : State :=
  { s with seen := obj :: s.seen, nodes := s.nodes + 1 }

/-- Where the stack gives out in a call does not matter: nothing rescues the error. -/
def walk : Nat → Obj → String → Prog Exn State Unit
  | 0, _, _ => fun s => (.stuck, s)
  | fuel + 1, obj, path => fun s =>
    if h.fits path obj = false then (.raised stackError, s)
    else if h.shareable obj then (.ok (), s)
    else if MAX_FINDINGS ≤ s.findings.length then (.ok (), s)
    else if obj ∈ s.seen then (.ok (), s)
    else if MAX_NODES < (s.enter obj).nodes then (.ok (), s.enter obj)
    else scanObject h (walk fuel) obj path (s.enter obj)

def scanModule (mod : Obj) (path : String) : Prog Exn State Unit := do
  let list ← fromExcept (h.ivars mod)
  eachUnshareable h (fun name value => note (moduleFinding h path name value)) list

def findings : Prog Exn State (List Finding) := fun s => (.ok s.findings, s)

def reportModule (app : Obj) : Prog Exn State Report := do
  let name ← fromExcept (h.inspect app)
  scanModule h app ("app (" ++ name ++ ")")
  let list ← findings
  pure ⟨list.isEmpty, list⟩

/-- The fuel is what the budget can use. -/
def reportObject (app : Obj) : Prog Exn State Report := do
  walk h (MAX_NODES + 1) app "app"
  let list ← findings
  onlyIf list.isEmpty (note (leafFinding h "app" app))
  let list ← findings
  pure ⟨false, list⟩

/-- `Check.report`. -/
def report (app : Obj) : Prog Exn State Report := do
  let module ← fromExcept (h.isA app .module)
  onlyIf (!h.fits "app" app) (raise stackError)
  if module then reportModule h app
  else if h.shareable app then pure ⟨true, []⟩
  else reportObject h app


def ivarsOf (v : Obj) : List (String × Obj) := match h.ivars v with
  | .ok list => list
  | .error _ => []

/-- What an object holds that the walk goes on to: a proc's captures; else the instance
    variables, and the elements of a collection. The members of a Struct and the self of a proc
    are not among it. -/
def innards (v : Obj) : List Obj := match h.kind v with
  | .proc _ none => []
  | .proc _ (some b) => b.locals.map Prod.snd
  | .hash pairs => (ivarsOf h v).map Prod.snd ++ pairs.flatMap fun pair => [pair.1, pair.2]
  | .array values => (ivarsOf h v).map Prod.snd ++ values
  | .module | .other => (ivarsOf h v).map Prod.snd

def receivers (v : Obj) : List Obj := match h.kind v with
  | .proc _ (some b) => [b.receiver]
  | _ => []

/-- All that is asked something for the sake of an object. -/
def asked (v : Obj) : List Obj :=
  v :: (ivarsOf h v).map Prod.snd ++ innards h v ++ receivers h v

def Blocks (v w : Obj) : Prop := w ∈ innards h v ∧ h.shareable w = false

def due (c : Except Exn Bool) (finding : Except Exn Finding) : List (Except Exn Finding) :=
  match c with
  | .ok true => [finding]
  | .ok false => []
  | .error e => [.error e]

def blocking (list : List (String × Obj)) : List (String × Obj) :=
  list.filter fun l => !h.shareable l.2

/-- What the doctor has to say of an object that it meets at a path, or the error that it gets
    instead. Of a proc that captures nothing unshareable, in a shareable self, it is nothing. -/
def notesOf (path : String) (v : Obj) : List (Except Exn Finding) := match h.kind v with
  | .proc _ none => []
  | .proc location (some b) =>
    due (.ok !h.shareable b.receiver) (receiverFinding h path location b.receiver) ++
      (blocking h b.locals).map fun l => captureFinding h path location l.1 l.2
  | _ =>
    match h.ivars v with
    | .error e => [.error e]
    | .ok list =>
      (blocking h list).map (fun l => ivarFinding h path l.1 l.2) ++
        due (loose h v) (notFrozenFinding h path v) ++ due (bare h v) (leafFinding h path v)

/-- A path of the report and the object it leads to: each step is from an unshareable object to
    something it holds. -/
inductive Route (app : Obj) : String → Obj → Prop
  | start : Route app "app" app
  | ivar {path : String} {v w : Obj} {name : String} {list : List (String × Obj)}
      (there : Route app path v) (unshareable : h.shareable v = false)
      (no_proc : ∀ location binding, h.kind v ≠ .proc location binding)
      (listed : h.ivars v = .ok list) (holds : (name, w) ∈ list) :
      Route app (path ++ ivarLabel name) w
  | key {path : String} {v w u : Obj} {name : String} {pairs : List (Obj × Obj)}
      (there : Route app path v) (unshareable : h.shareable v = false) (kind : h.kind v = .hash pairs)
      (holds : (w, u) ∈ pairs) (named : h.inspect w = .ok name) :
      Route app (path ++ keyLabel name) w
  | value {path : String} {v w u : Obj} {name : String} {pairs : List (Obj × Obj)}
      (there : Route app path v) (unshareable : h.shareable v = false) (kind : h.kind v = .hash pairs)
      (holds : (w, u) ∈ pairs) (named : h.inspect w = .ok name) :
      Route app (path ++ valueLabel name) u
  | index {path : String} {v w : Obj} {i : Nat} {values : List Obj}
      (there : Route app path v) (unshareable : h.shareable v = false) (kind : h.kind v = .array values)
      (holds : values[i]? = some w) : Route app (path ++ indexLabel i) w
  | capture {path : String} {v w : Obj} {name : String} {location : Option (String × Nat)}
      {b : Binding} (there : Route app path v) (unshareable : h.shareable v = false)
      (kind : h.kind v = .proc location (some b)) (holds : (name, w) ∈ b.locals) :
      Route app (path ++ captureLabel name) w

/-- A finding about an unshareable object at a path that leads to it. -/
def Sound (app : Obj) (f : Finding) : Prop :=
  ∃ path v, Route h app path v ∧ h.shareable v = false ∧ .ok f ∈ notesOf h path v

/-- One of the object's own methods raises. -/
inductive Refuses (w : Obj) (e : Exn) : Prop where
  | isA (klass : Klass) (asked : h.isA w klass = .error e)
  | frozen (asked : h.frozen w = .error e)
  | ivars (asked : h.ivars w = .error e)
  | inspect (asked : h.inspect w = .error e)
  | className (asked : h.className w = .error e)

/-- What the doctor does not survive: an object that refuses an answer, and the end of the stack. -/
def Raises (app : Obj) (e : Exn) : Prop :=
  ∃ path v, Route h app path v ∧
    ((∃ w ∈ asked h v, Refuses h w e) ∨ (h.fits path v = false ∧ e = stackError))

/-- Neither limit has been reached. -/
structure Uncut (s : State) : Prop where
  findings : s.findings.length < MAX_FINDINGS
  nodes : s.nodes ≤ MAX_NODES

def Said (notes : List (Except Exn Finding)) (list : List Finding) : Prop :=
  ∀ n ∈ notes, ∃ f ∈ list, n = .ok f

def Told (app : Obj) (s : State) (v : Obj) : Prop :=
  ∃ path, Route h app path v ∧ Said (notesOf h path v) s.findings

structure Grew (app : Obj) (s t : State) : Prop where
  findings : s.findings <+: t.findings
  nodes : s.nodes ≤ t.nodes
  seen : s.seen ⊆ t.seen
  explored : Uncut t → Explores (Blocks h) s.seen t.seen
  told : Uncut t → ∀ v ∈ t.seen, v ∉ s.seen → Told h app t v

structure Sane (app : Obj) (fuel : Nat) (s : State) : Prop where
  budget : MAX_NODES < s.nodes + fuel
  counted : s.nodes = s.seen.length
  once : s.seen.Nodup
  reached : ∀ v ∈ s.seen, (∃ path, Route h app path v) ∧ h.shareable v = false
  sound : ∀ f ∈ s.findings, Sound h app f

section Refusals
variable {h} {v w : Obj} {e : Exn}

theorem either_error {x y : Except Exn Bool} (failed : either x y = .error e) :
    x = .error e ∨ y = .error e := by
  cases x with
  | error e' => exact .inl failed
  | ok b =>
    cases b with
    | true => cases failed
    | false => exact .inr failed

theorem both_error {x y : Except Exn Bool} (failed : both x y = .error e) :
    x = .error e ∨ y = .error e := by
  cases x with
  | error e' => exact .inl failed
  | ok b =>
    cases b with
    | true => exact .inr failed
    | false => cases failed

theorem map_error {α β : Type} {x : Except Exn α} {f : α → β} (failed : x.map f = .error e) :
    x = .error e := by
  cases x with
  | error e' =>
    cases failed
    rfl
  | ok a => cases failed

theorem brief_refuses (failed : brief h w = .error e) : Refuses h w e := by
  have unanswered : ∀ e', described h w = .error e' → Refuses h w e' := by
    intro e' failed
    unfold described at failed
    cases inspected : h.inspect w with
    | error e'' =>
      rw [inspected] at failed
      cases failed
      exact .inspect inspected
    | ok text =>
      rw [inspected] at failed
      exact .className (map_error failed)
  unfold brief at failed
  split at failed
  · cases failed
  · rename_i e' first
    split at failed
    · exact .className (map_error failed)
    · cases failed
      exact unanswered e first

theorem unshareableNote_refuses (failed : unshareableNote h w = .error e) : Refuses h w e := by
  unfold unshareableNote at failed
  cases frozen : h.frozen w with
  | error e' =>
    rw [frozen] at failed
    cases failed
    exact .frozen frozen
  | ok b =>
    rw [frozen] at failed
    exact brief_refuses (map_error failed)

theorem loose_refuses (failed : loose h v = .error e) : Refuses h v e := by
  rcases either_error (map_error failed) with frozen | rest
  · exact .frozen frozen
  · rcases either_error rest with proc | module
    · exact .isA _ proc
    · exact .isA _ module

theorem bare_refuses (failed : bare h v = .error e) : Refuses h v e := by
  rcases either_error (map_error failed) with front | collection
  · rcases either_error front with ivars | proc
    · exact .ivars (map_error ivars)
    · exact .isA _ proc
  · rcases both_error collection with either | thawed
    · rcases either_error either with hash | array
      · exact .isA _ hash
      · exact .isA _ array
    · exact .frozen (map_error thawed)

theorem due_error {c : Except Exn Bool} {n : Except Exn Finding} (mem : .error e ∈ due c n) :
    c = .error e ∨ n = .error e := by
  unfold due at mem
  split at mem
  · next finding =>
    exact .inr (List.mem_singleton.mp mem).symm
  · cases mem
  · next e' =>
    have same : e = e' := by simpa using mem
    exact .inl (congrArg _ same.symm)

end Refusals

section Rules
variable {h} {app : Obj} {fuel : Nat}

theorem blocking_mem {l : String × Obj} {list : List (String × Obj)} :
    l ∈ blocking h list ↔ l ∈ list ∧ h.shareable l.2 = false := by
  simp [blocking]

theorem ivarsOf_listed {v : Obj} {list : List (String × Obj)} (listed : h.ivars v = .ok list) :
    ivarsOf h v = list := by
  simp [ivarsOf, listed]

theorem self_asked {v : Obj} : v ∈ asked h v := by
  simp [asked]

theorem ivar_asked {v : Obj} {l : String × Obj} {list : List (String × Obj)}
    (listed : h.ivars v = .ok list) (here : l ∈ list) : l.2 ∈ asked h v := by
  have value : l.2 ∈ (ivarsOf h v).map Prod.snd := by
    rw [ivarsOf_listed listed]
    exact List.mem_map_of_mem here
  simp [asked, value]

theorem innards_asked {v w : Obj} (inside : w ∈ innards h v) : w ∈ asked h v := by
  simp [asked, inside]

/-- Only a refusal keeps the doctor from saying what it has to say. -/
theorem notes_refuse {path : String} {v : Obj} {e : Exn} (mem : .error e ∈ notesOf h path v) :
    ∃ w ∈ asked h v, Refuses h w e := by
  unfold notesOf at mem
  split at mem
  · cases mem
  · next location b kind =>
    rcases List.mem_append.mp mem with self | capture
    · rcases due_error self with never | failed
      · cases never
      · have receiver : b.receiver ∈ asked h v := by simp [asked, receivers, kind]
        exact ⟨b.receiver, receiver, brief_refuses (map_error failed)⟩
    · obtain ⟨l, here, failed⟩ := List.mem_map.mp capture
      have inside : l.2 ∈ innards h v := by
        simp only [innards, kind]
        exact List.mem_map_of_mem (blocking_mem.mp here).1
      exact ⟨l.2, innards_asked inside, brief_refuses (map_error failed)⟩
  · split at mem
    · next e' listed =>
      have same : e = e' := by simpa using mem
      exact ⟨v, self_asked, .ivars (same ▸ listed)⟩
    · next list listed =>
      rcases List.mem_append.mp mem with front | leaf
      · rcases List.mem_append.mp front with ivar | thawed
        · obtain ⟨l, here, failed⟩ := List.mem_map.mp ivar
          exact ⟨l.2, ivar_asked listed (blocking_mem.mp here).1,
            unshareableNote_refuses (map_error failed)⟩
        · rcases due_error thawed with failed | failed
          · exact ⟨v, self_asked, loose_refuses failed⟩
          · exact ⟨v, self_asked, .className (map_error failed)⟩
      · rcases due_error leaf with failed | failed
        · exact ⟨v, self_asked, bare_refuses failed⟩
        · exact ⟨v, self_asked, unshareableNote_refuses (map_error failed)⟩

theorem Grew.uncut {s t : State} (grew : Grew h app s t) (uncut : Uncut t) : Uncut s :=
  ⟨Nat.lt_of_le_of_lt grew.findings.length_le uncut.findings, Nat.le_trans grew.nodes uncut.nodes⟩

theorem Said.later {notes : List (Except Exn Finding)} {early late : List Finding}
    (said : Said notes early) (more : early <+: late) : Said notes late := by
  intro n mem
  obtain ⟨f, here, same⟩ := said n mem
  exact ⟨f, more.subset here, same⟩

theorem said_append {notes more : List (Except Exn Finding)} {list : List Finding}
    (first : Said notes list) (second : Said more list) : Said (notes ++ more) list := by
  intro n mem
  exact (List.mem_append.mp mem).elim (first n) (second n)

theorem Told.later {s t : State} {v : Obj} (told : Told h app s v) (more : s.findings <+: t.findings) :
    Told h app t v := by
  obtain ⟨path, route, all⟩ := told
  exact ⟨path, route, all.later more⟩

theorem grew_refl (s : State) : Grew h app s s :=
  ⟨List.prefix_refl _, Nat.le_refl _, List.Subset.refl _, fun _ => Explores.refl _,
    fun _ _ here fresh => absurd here fresh⟩

theorem grew_trans (s t u : State) (first : Grew h app s t) (second : Grew h app t u) :
    Grew h app s u := by
  constructor
  · exact first.findings.trans second.findings
  · exact Nat.le_trans first.nodes second.nodes
  · exact List.Subset.trans first.seen second.seen
  · intro uncut
    exact (first.explored (second.uncut uncut)).trans (second.explored uncut)
  · intro uncut v here fresh
    by_cases early : v ∈ t.seen
    · exact (first.told (second.uncut uncut) v early fresh).later second.findings
    · exact second.told uncut v here early

def Unless (facts : State → Prop) (s : State) : Prop := Uncut s → facts s

theorem lasting_unless {facts : State → Prop} (last : Lasting (Grew h app) facts) :
    Lasting (Grew h app) (Unless facts) := by
  intro s t grew holds uncut
  exact last s t grew (holds (grew.uncut uncut))

theorem lasting_said (notes : List (Except Exn Finding)) :
    Lasting (Grew h app) fun s => Said notes s.findings :=
  fun _ _ grew said => said.later grew.findings

theorem lasting_seen (v : Obj) : Lasting (Grew h app) fun s => v ∈ s.seen :=
  fun _ _ grew here => grew.seen here

theorem lasting_and {facts more : State → Prop} (first : Lasting (Grew h app) facts)
    (second : Lasting (Grew h app) more) : Lasting (Grew h app) fun s => facts s ∧ more s :=
  fun s t grew both => ⟨first s t grew both.1, second s t grew both.2⟩

theorem lasting_all {α : Type} {list : List α} {fact : α → State → Prop}
    (last : ∀ a, Lasting (Grew h app) (fact a)) : Lasting (Grew h app) fun s => ∀ a ∈ list, fact a s :=
  fun s t grew all a here => last a s t grew (all a here)

theorem lasting_so {p : Prop} {facts : State → Prop} (last : Lasting (Grew h app) facts) :
    Lasting (Grew h app) fun s => p → facts s :=
  fun s t grew so here => last s t grew (so here)

abbrev Walks (h : Heap) (app : Obj) (fuel : Nat) (facts : State → Prop) (p : Prog Exn State Unit) :
    Prop := Meets (Sane h app fuel) (Raises h app) (Grew h app) facts p

theorem record_walks {f : Finding} (sound : Sound h app f) :
    Walks h app fuel (fun s => f ∈ s.findings) (record f) := by
  apply meets_update
  · intro s sane
    have all : ∀ g ∈ s.findings ++ [f], Sound h app g := by
      intro g mem
      rcases List.mem_append.mp mem with old | new
      · exact sane.sound g old
      · rw [List.mem_singleton.mp new]
        exact sound
    exact ⟨sane.budget, sane.counted, sane.once, sane.reached, all⟩
  · intro s
    exact ⟨List.prefix_append _ _, Nat.le_refl _, List.Subset.refl _, fun _ => Explores.refl _,
      fun _ _ here fresh => absurd here fresh⟩
  · intro s
    simp

theorem unlessFull_walks {facts : State → Prop} {p : Prog Exn State Unit}
    (walks : Walks h app fuel (Unless facts) p) : Walks h app fuel (Unless facts) (unlessFull p) := by
  intro s sane
  unfold unlessFull
  split
  · rename_i full
    left
    have cut : Unless facts s := fun uncut => absurd uncut.findings (Nat.not_lt.mpr full)
    exact ⟨(), s, rfl, sane, grew_refl s, cut⟩
  · exact walks s sane

theorem eachUnshareable_walks {visit : String → Obj → Prog Exn State Unit}
    {fact : String × Obj → State → Prop} (last : ∀ l, Lasting (Grew h app) (fact l))
    (list : List (String × Obj))
    (each : ∀ l ∈ blocking h list, Walks h app fuel (fact l) (visit l.1 l.2)) :
    Walks h app fuel (Unless fun s => ∀ l ∈ blocking h list, fact l s)
      (eachUnshareable h visit list) := by
  induction list with
  | nil => exact meets_weaken (meets_pure grew_refl ()) (by simp [Unless, blocking])
  | cons l rest ih =>
    unfold eachUnshareable
    split
    · next shareable =>
      have same : blocking h (l :: rest) = blocking h rest := by simp [blocking, shareable]
      rw [same] at each ⊢
      exact ih each
    · next unshareable =>
      have more : blocking h (l :: rest) = l :: blocking h rest := by simp [blocking, unshareable]
      rw [more] at each ⊢
      have tail := ih fun l' here => each l' (List.mem_cons_of_mem l here)
      have head := each l List.mem_cons_self
      have both := meets_bind grew_trans (last l) head fun _ => unlessFull_walks tail
      refine meets_weaken both fun s all uncut l' here => ?_
      rcases List.mem_cons.mp here with rfl | later
      · exact all.1
      · exact all.2 uncut l' later

def Visited (h : Heap) (w : Obj) : State → Prop := Unless fun s => h.shareable w = false → w ∈ s.seen

theorem lasting_visited (w : Obj) : Lasting (Grew h app) (Visited h w) :=
  lasting_unless (lasting_so (lasting_seen w))

def Inner (h : Heap) (app : Obj) (fuel : Nat) (walk : Obj → String → Prog Exn State Unit) : Prop :=
  ∀ w path, Route h app path w → Walks h app fuel (Visited h w) (walk w path)

section Scans
variable {walk : Obj → String → Prog Exn State Unit} {v : Obj} {path : String}
variable (route : Route h app path v) (unshareable : h.shareable v = false)
include route

theorem refused_walks {e : Exn} {facts : State → Prop} {w : Obj} (at_v : w ∈ asked h v)
    (refuses : Refuses h w e) : Walks h app fuel facts (raise e) := by
  intro s _
  right
  exact ⟨e, s, rfl, path, v, route, .inl ⟨w, at_v, refuses⟩⟩

include unshareable

theorem note_walks {n : Except Exn Finding} (mem : n ∈ notesOf h path v) :
    Walks h app fuel (fun s => Said [n] s.findings) (note n) := by
  cases n with
  | error e =>
    obtain ⟨w, at_v, refuses⟩ := notes_refuse mem
    exact refused_walks route at_v refuses
  | ok f =>
    have sound : Sound h app f := ⟨path, v, route, unshareable, mem⟩
    exact meets_weaken (record_walks sound) fun s here => by simpa [Said] using here

theorem noteIf_walks {c : Except Exn Bool} {n : Except Exn Finding}
    (all : ∀ m ∈ due c n, m ∈ notesOf h path v) :
    Walks h app fuel (fun s => Said (due c n) s.findings) (noteIf c n) := by
  cases c with
  | error e =>
    obtain ⟨w, at_v, refuses⟩ := notes_refuse (all (.error e) (by simp [due]))
    exact refused_walks route at_v refuses
  | ok b =>
    cases b with
    | true => exact note_walks route unshareable (all n (by simp [due]))
    | false => exact meets_weaken (meets_pure grew_refl ()) (by simp [Said, due])

theorem named_walks (inner : Inner h app fuel walk) (finding : String → Obj → Except Exn Finding)
    (label : String → String) (list : List (String × Obj))
    (all : ∀ l ∈ blocking h list, finding l.1 l.2 ∈ notesOf h path v)
    (routes : ∀ l ∈ list, Route h app (path ++ label l.1) l.2) :
    Walks h app fuel
      (Unless fun s => Said ((blocking h list).map fun l => finding l.1 l.2) s.findings ∧
        ∀ l ∈ blocking h list, l.2 ∈ s.seen)
      (eachUnshareable h (fun name value => do
        note (finding name value)
        walk value (path ++ label name)) list) := by
  have last : ∀ l : String × Obj,
      Lasting (Grew h app) fun s => Said [finding l.1 l.2] s.findings ∧ Visited h l.2 s := fun l =>
    lasting_and (lasting_said _) (lasting_visited l.2)
  have each : ∀ l ∈ blocking h list,
      Walks h app fuel (fun s => Said [finding l.1 l.2] s.findings ∧ Visited h l.2 s)
        (do note (finding l.1 l.2); walk l.2 (path ++ label l.1)) :=
    fun l here => meets_bind grew_trans (lasting_said _)
      (note_walks route unshareable (all l here))
      fun _ => inner l.2 _ (routes l (blocking_mem.mp here).1)
  have loop : Walks h app fuel _ (eachUnshareable h (fun name value => do
      note (finding name value)
      walk value (path ++ label name)) list) := eachUnshareable_walks last list each
  refine meets_weaken loop fun s facts uncut => ⟨?_, fun l here => ?_⟩
  · intro n mem
    obtain ⟨l, here, rfl⟩ := List.mem_map.mp mem
    exact (facts uncut l here).1 _ (List.mem_singleton_self _)
  · exact (facts uncut l here).2 uncut (blocking_mem.mp here).2

/-- All that follows from the object is seen, and all that is to be said of it is said. -/
def Done (h : Heap) (path : String) (v : Obj) : State → Prop :=
  Unless fun s => (∀ w, Blocks h v w → w ∈ s.seen) ∧ Said (notesOf h path v) s.findings

theorem scanProc_walks (inner : Inner h app fuel walk) {location : Option (String × Nat)}
    {binding : Option Binding} (kind : h.kind v = .proc location binding) :
    Walks h app fuel (Done h path v) (scanProc h walk path location binding) := by
  cases binding with
  | none =>
    refine meets_weaken (meets_pure grew_refl ()) fun s _ _ => ?_
    simp [Blocks, innards, notesOf, kind, Said]
  | some b =>
    have notes : notesOf h path v =
        due (.ok !h.shareable b.receiver) (receiverFinding h path location b.receiver) ++
          (blocking h b.locals).map fun l => captureFinding h path location l.1 l.2 := by
      simp only [notesOf, kind]
    have receiver : Walks h app fuel
        (fun s => Said (due (.ok !h.shareable b.receiver)
          (receiverFinding h path location b.receiver)) s.findings)
        (noteIf (.ok !h.shareable b.receiver) (receiverFinding h path location b.receiver)) :=
      noteIf_walks route unshareable fun m mem => notes ▸ List.mem_append_left _ mem
    have captures := named_walks route unshareable inner (captureFinding h path location)
      captureLabel b.locals
      (fun l here => notes ▸ List.mem_append_right _ (List.mem_map.mpr ⟨l, here, rfl⟩))
      (fun l here => .capture route unshareable kind here)
    have whole := meets_bind grew_trans (lasting_said _) receiver fun _ => captures
    refine meets_weaken whole fun s facts uncut => ⟨?_, ?_⟩
    · intro w blocks
      obtain ⟨mem, blocked⟩ := blocks
      simp only [innards, kind, List.mem_map] at mem
      obtain ⟨l, here, rfl⟩ := mem
      exact (facts.2 uncut).2 l (blocking_mem.mpr ⟨here, blocked⟩)
    · rw [notes]
      exact said_append facts.1 (facts.2 uncut).1

def Named (h : Heap) (path : String) (list : List (String × Obj)) : State → Prop :=
  Unless fun s => Said ((blocking h list).map fun l => ivarFinding h path l.1 l.2) s.findings ∧
    ∀ l ∈ blocking h list, l.2 ∈ s.seen

omit route unshareable in
theorem lasting_named (list : List (String × Obj)) : Lasting (Grew h app) (Named h path list) :=
  lasting_unless (lasting_and (lasting_said _) (lasting_all fun _ => lasting_seen _))

section Plain
variable (plain : ∀ location binding, h.kind v ≠ .proc location binding)
variable {list : List (String × Obj)} (listed : h.ivars v = .ok list)
include plain listed

variable (path) in
omit route unshareable in
theorem notesOf_plain : notesOf h path v =
    (blocking h list).map (fun l => ivarFinding h path l.1 l.2) ++
      due (loose h v) (notFrozenFinding h path v) ++ due (bare h v) (leafFinding h path v) := by
  unfold notesOf
  split
  · next kind => exact absurd kind (plain _ _)
  · next kind => exact absurd kind (plain _ _)
  · rw [listed]

theorem scanIvars_walks (inner : Inner h app fuel walk) : Walks h app fuel
    (fun s => Named h path list s ∧ Said (due (loose h v) (notFrozenFinding h path v)) s.findings)
    (scanIvars h walk v path) := by
  have notes := notesOf_plain path plain listed
  have ivars := named_walks route unshareable inner (ivarFinding h path) ivarLabel list
    (fun l here => by
      rw [notes, List.append_assoc]
      exact List.mem_append_left _ (List.mem_map.mpr ⟨l, here, rfl⟩))
    (fun l here => .ivar route unshareable plain listed here)
  unfold scanIvars
  rw [listed, ok_then]
  refine meets_bind grew_trans (lasting_named list) ivars fun _ =>
    noteIf_walks route unshareable fun m mem => ?_
  rw [notes]
  exact List.mem_append_left _ (List.mem_append_right _ mem)

theorem reportLeaf_walks : Walks h app fuel
    (fun s => Said (due (bare h v) (leafFinding h path v)) s.findings) (reportLeaf h v path) := by
  apply noteIf_walks route unshareable
  intro m mem
  rw [notesOf_plain path plain listed]
  exact List.mem_append_right _ mem

end Plain

theorem plain_walks (plain : ∀ location binding, h.kind v ≠ .proc location binding)
    (inner : Inner h app fuel walk) {others : List Obj} {elements : Prog Exn State Unit}
    (held : innards h v = (ivarsOf h v).map Prod.snd ++ others)
    (middle : Walks h app fuel (Unless fun s => ∀ w ∈ others, h.shareable w = false → w ∈ s.seen)
      elements) :
    Walks h app fuel (Done h path v)
      (do scanIvars h walk v path; elements; reportLeaf h v path) := by
  cases listed : h.ivars v with
  | error e =>
    unfold scanIvars
    rw [listed]
    exact refused_walks route self_asked (.ivars listed)
  | ok list =>
    have ivars := scanIvars_walks route unshareable plain listed inner
    have whole := meets_bind grew_trans (lasting_and (lasting_named list) (lasting_said _)) ivars
      fun _ => meets_bind grew_trans
        (lasting_unless (lasting_all fun w => lasting_so (lasting_seen w))) middle
        fun _ => reportLeaf_walks route unshareable plain listed
    refine meets_weaken whole fun s facts uncut => ⟨?_, ?_⟩
    · intro w blocks
      obtain ⟨mem, blocked⟩ := blocks
      rw [held, ivarsOf_listed listed] at mem
      rcases List.mem_append.mp mem with ivar | element
      · obtain ⟨l, here, rfl⟩ := List.mem_map.mp ivar
        exact (facts.1.1 uncut).2 l (blocking_mem.mpr ⟨here, blocked⟩)
      · exact facts.2.1 uncut w element blocked
    · rw [notesOf_plain path plain listed]
      exact said_append (said_append (facts.1.1 uncut).1 facts.1.2) facts.2.2

theorem walkPair_walks (inner : Inner h app fuel walk) {pairs : List (Obj × Obj)}
    (kind : h.kind v = .hash pairs) (pair : Obj × Obj) (holds : pair ∈ pairs) :
    Walks h app fuel (fun s => Visited h pair.1 s ∧ Visited h pair.2 s) (walkPair h walk path pair) := by
  unfold walkPair
  cases named : h.inspect pair.1 with
  | error e =>
    have inside : pair.1 ∈ innards h v := by
      simp only [innards, kind]
      exact List.mem_append_right _ (List.mem_flatMap.mpr ⟨pair, holds, by simp⟩)
    exact refused_walks route (innards_asked inside) (.inspect named)
  | ok key =>
    have first := inner pair.1 _ (.key route unshareable kind holds named)
    have second := inner pair.2 _ (.value route unshareable kind holds named)
    rw [ok_then, ok_then]
    exact meets_bind grew_trans (lasting_visited pair.1) first fun _ => second

theorem pairs_walk (inner : Inner h app fuel walk) {pairs : List (Obj × Obj)}
    (kind : h.kind v = .hash pairs) : Walks h app fuel
    (Unless fun s => ∀ w ∈ pairs.flatMap (fun pair => [pair.1, pair.2]), h.shareable w = false →
      w ∈ s.seen) (pairs.forM (walkPair h walk path)) := by
  have loop := meets_forM grew_trans grew_refl
    (fun pair => lasting_and (lasting_visited pair.1) (lasting_visited pair.2)) pairs
    (walkPair_walks route unshareable inner kind)
  refine meets_weaken loop fun s all uncut w here blocked => ?_
  obtain ⟨pair, mem, one⟩ := List.mem_flatMap.mp here
  have both := all pair mem
  simp only [List.mem_cons, List.not_mem_nil, or_false] at one
  rcases one with rfl | rfl
  · exact both.1 uncut blocked
  · exact both.2 uncut blocked

theorem values_walk (inner : Inner h app fuel walk) {values : List Obj}
    (kind : h.kind v = .array values) : Walks h app fuel
    (Unless fun s => ∀ w ∈ values, h.shareable w = false → w ∈ s.seen)
    (values.zipIdx.forM fun w => walk w.1 (path ++ indexLabel w.2)) := by
  have loop := meets_forM grew_trans grew_refl (fun w => lasting_visited w.1) values.zipIdx
    fun w here => inner w.1 _ (.index route unshareable kind (List.mem_zipIdx_iff_getElem?.mp here))
  refine meets_weaken loop fun s all uncut w here blocked => ?_
  obtain ⟨i, there⟩ := List.mem_iff_getElem?.mp here
  exact all (w, i) (List.mem_zipIdx_iff_getElem?.mpr there) uncut blocked

theorem scanObject_walks (inner : Inner h app fuel walk) :
    Walks h app fuel (Done h path v) (scanObject h walk v path) := by
  unfold scanObject
  cases kind : h.kind v with
  | proc location binding => exact scanProc_walks route unshareable inner kind
  | hash pairs =>
    have held : innards h v =
        (ivarsOf h v).map Prod.snd ++ pairs.flatMap fun pair => [pair.1, pair.2] := by
      simp [innards, kind]
    exact plain_walks route unshareable (by simp [kind]) inner held
      (pairs_walk route unshareable inner kind)
  | array values =>
    have held : innards h v = (ivarsOf h v).map Prod.snd ++ values := by simp [innards, kind]
    exact plain_walks route unshareable (by simp [kind]) inner held
      (values_walk route unshareable inner kind)
  | module | other =>
    have held : innards h v = (ivarsOf h v).map Prod.snd ++ [] := by simp [innards, kind]
    have nothing : Walks h app fuel
        (Unless fun s => ∀ w ∈ ([] : List Obj), h.shareable w = false → w ∈ s.seen) (pure ()) :=
      meets_weaken (meets_pure grew_refl ()) (by simp [Unless])
    exact plain_walks route unshareable (by simp [kind]) inner held nothing

end Scans

/-- A walk that does not go inside leaves the state as it is, and lacks its object only when a
    limit is reached or the object was seen or is shareable. -/
theorem stay_walks {s : State} {v : Obj} (sane : Sane h app fuel s) (there : Visited h v s) :
    ∃ (a : Unit) (t : State), ((Outcome.ok () : Outcome Exn Unit), s) = (.ok a, t) ∧
      Sane h app fuel t ∧ Grew h app s t ∧ Visited h v t :=
  ⟨(), s, rfl, sane, grew_refl s, there⟩

theorem enter_sane {s : State} {v : Obj} {path : String} (sane : Sane h app (fuel + 1) s)
    (route : Route h app path v) (unshareable : h.shareable v = false) (fresh : v ∉ s.seen) :
    Sane h app fuel (s.enter v) := by
  have budget := sane.budget
  have counted := sane.counted
  constructor
  · simp only [State.enter]
    omega
  · simp only [State.enter, List.length_cons]
    omega
  · exact List.nodup_cons.mpr ⟨fresh, sane.once⟩
  · intro u here
    rcases List.mem_cons.mp here with rfl | old
    · exact ⟨⟨path, route⟩, unshareable⟩
    · exact sane.reached u old
  · exact sane.sound

theorem Sane.more {s : State} (sane : Sane h app fuel s) : Sane h app (fuel + 1) s := by
  have budget := sane.budget
  exact ⟨by omega, sane.counted, sane.once, sane.reached, sane.sound⟩

/-- The object is noted first, and told about in full once the walk of it is over. -/
theorem enter_grew {s t : State} {v : Obj} {path : String} (route : Route h app path v)
    (grew : Grew h app (s.enter v) t)
    (all : Done h path v t) :
    Grew h app s t := by
  constructor
  · exact grew.findings
  · have counted := grew.nodes
    simp only [State.enter] at counted
    omega
  · exact fun u old => grew.seen (List.mem_cons_of_mem v old)
  · intro uncut
    exact (grew.explored uncut).visit (all uncut).1
  · intro uncut u here fresh
    by_cases same : u = v
    · rw [same]
      exact ⟨path, route, (all uncut).2⟩
    · have elsewhere : u ∉ (s.enter v).seen := by
        intro mem
        rcases List.mem_cons.mp mem with eq | old
        · exact same eq
        · exact fresh old
      exact grew.told uncut u here elsewhere

/-- One level of the walk, from what is known of the levels below it, if there are any. -/
theorem walk_step (inner : 0 < fuel → Inner h app fuel (walk h fuel)) :
    Inner h app (fuel + 1) (walk h (fuel + 1)) := by
  intro v path route s sane
  unfold walk
  split
  · next deep =>
    right
    exact ⟨stackError, s, rfl, path, v, route, .inr ⟨deep, rfl⟩⟩
  split
  · rename_i shareable
    left
    apply stay_walks sane
    intro _ blocked
    rw [shareable] at blocked
    contradiction
  · rename_i unshareable
    have unshareable : h.shareable v = false := by simpa using unshareable
    split
    · rename_i full
      left
      apply stay_walks sane
      intro uncut
      exact absurd uncut.findings (Nat.not_lt.mpr full)
    · split
      · rename_i seen
        left
        exact stay_walks sane fun _ _ => seen
      · rename_i fresh
        have entered := enter_sane sane route unshareable fresh
        split
        · rename_i spent
          left
          have cut : ¬Uncut (s.enter v) := fun uncut => absurd uncut.nodes (Nat.not_le.mpr spent)
          exact ⟨(), s.enter v, rfl, entered.more,
            enter_grew route (grew_refl _) fun uncut => absurd uncut cut, fun uncut => absurd uncut cut⟩
        · rename_i within
          have budget := entered.budget
          have level := scanObject_walks route unshareable (inner (by omega)) (s.enter v) entered
          rcases level with ⟨a, t, ran, kept, grew, all⟩ | failed
          · left
            have seen : v ∈ t.seen := grew.seen List.mem_cons_self
            exact ⟨a, t, ran, kept.more, enter_grew route grew all, fun _ _ => seen⟩
          · right
            exact failed

/-- The walk never runs out of fuel: the budget needs no more than is left. -/
theorem walk_walks (fuel : Nat) : Inner h app (fuel + 1) (walk h (fuel + 1)) := by
  induction fuel with
  | zero => exact walk_step fun none => absurd none (Nat.lt_irrefl 0)
  | succ fuel ih => exact walk_step fun _ => ih

theorem route_blocks {path : String} {v : Obj} (route : Route h app path v)
    (unshareable : h.shareable v = false) : Relation.ReflTransGen (Blocks h) app v := by
  induction route with
  | start => exact .refl
  | @ivar _ u w name list _ above no_proc listed holds ih =>
    have mem : w ∈ (ivarsOf h u).map Prod.snd := by
      rw [ivarsOf_listed listed]
      exact List.mem_map.mpr ⟨(name, w), holds, rfl⟩
    have inside : w ∈ innards h u := by
      unfold innards
      split
      · next kind => exact absurd kind (no_proc _ _)
      · next kind => exact absurd kind (no_proc _ _)
      · exact List.mem_append_left _ mem
      · exact List.mem_append_left _ mem
      · exact mem
      · exact mem
    exact (ih above).tail ⟨inside, unshareable⟩
  | @key _ u w _ _ _ _ above kind holds named ih =>
    have inside : w ∈ innards h u := by
      simp only [innards, kind]
      apply List.mem_append_right
      exact List.mem_flatMap.mpr ⟨_, holds, by simp⟩
    exact (ih above).tail ⟨inside, unshareable⟩
  | @value _ u _ w _ _ _ above kind holds named ih =>
    have inside : w ∈ innards h u := by
      simp only [innards, kind]
      apply List.mem_append_right
      exact List.mem_flatMap.mpr ⟨_, holds, by simp⟩
    exact (ih above).tail ⟨inside, unshareable⟩
  | @index _ u w _ _ _ above kind holds ih =>
    have inside : w ∈ innards h u := by
      simp only [innards, kind]
      exact List.mem_append_right _ (List.mem_of_getElem? holds)
    exact (ih above).tail ⟨inside, unshareable⟩
  | @capture _ u w _ _ _ _ above kind holds ih =>
    have inside : w ∈ innards h u := by
      simp only [innards, kind]
      exact List.mem_map.mpr ⟨_, holds, rfl⟩
    exact (ih above).tail ⟨inside, unshareable⟩

theorem initial_sane : Sane h app (MAX_NODES + 1) initial := by
  constructor <;> simp [initial]

/-- The class-level loop says the first that there is to say. -/
theorem scanModule_lists (path : String) (list : List (String × Obj)) (s : State)
    (room : s.findings.length < MAX_FINDINGS) :
    (∃ said, List.Forall₂ (fun l f => moduleFinding h path l.1 l.2 = .ok f)
        ((blocking h list).take (MAX_FINDINGS - s.findings.length)) said ∧
      eachUnshareable h (fun name value => note (moduleFinding h path name value)) list s =
        (.ok (), { s with findings := s.findings ++ said })) ∨
    ∃ l ∈ list, ∃ e t, moduleFinding h path l.1 l.2 = .error e ∧
      eachUnshareable h (fun name value => note (moduleFinding h path name value)) list s =
        (.raised e, t) := by
  induction list generalizing s with
  | nil => exact .inl ⟨[], by simp [blocking], by simp [eachUnshareable]⟩
  | cons l rest ih =>
    unfold eachUnshareable
    split
    · next shareable =>
      have same : blocking h (l :: rest) = blocking h rest := by simp [blocking, shareable]
      rw [same]
      exact (ih s room).imp_right fun ⟨l', here, failed⟩ => ⟨l', List.mem_cons_of_mem l here, failed⟩
    · next unshareable =>
      have more : blocking h (l :: rest) = l :: blocking h rest := by simp [blocking, unshareable]
      obtain ⟨left, eq⟩ : ∃ left, MAX_FINDINGS - s.findings.length = left + 1 :=
        ⟨MAX_FINDINGS - s.findings.length - 1, by omega⟩
      rw [more, eq, List.take_succ_cons]
      cases found : moduleFinding h path l.1 l.2 with
      | error e => exact .inr ⟨l, List.mem_cons_self, e, s, found, bind_raised rfl⟩
      | ok f =>
        have first : note (.ok f) s = (.ok (), { s with findings := s.findings ++ [f] }) := rfl
        rw [bind_ok first]
        unfold unlessFull
        split
        · next full =>
          simp only [List.length_append, List.length_singleton] at full
          have last : left = 0 := by omega
          exact .inl ⟨[f], by simp [last, found], rfl⟩
        · next below =>
          have left_eq : MAX_FINDINGS - (s.findings ++ [f]).length = left := by
            simp only [List.length_append, List.length_singleton]
            omega
          rcases ih { s with findings := s.findings ++ [f] } (Nat.lt_of_not_le below) with
            ⟨said, matched, ran⟩ | ⟨l', here, failed⟩
          · left
            rw [left_eq] at matched
            exact ⟨f :: said, .cons found matched, by rw [ran]; simp⟩
          · exact .inr ⟨l', List.mem_cons_of_mem l here, failed⟩

end Rules

/-- What the doctor finds out about an app that is no class: nothing when it is shareable. Else
    each finding is about an unshareable object at a path that leads to it from the app; and if
    the unshareable objects behind the app are within the budget, and the findings within their
    limit, all that it has to say of each of them is said. -/
structure Diagnosis (app : Obj) (r : Report) : Prop where
  shareable : r.shareable = h.shareable app
  none_iff : r.findings = [] ↔ h.shareable app = true
  sound : ∀ f ∈ r.findings,
    Sound h app f ∨ (r.findings = [f] ∧ leafFinding h "app" app = .ok f)
  complete : h.shareable app = false → r.findings.length < MAX_FINDINGS →
    ∀ culprits : List Obj, culprits.length ≤ MAX_NODES →
      (∀ v, Relation.ReflTransGen (Blocks h) app v → v ∈ culprits) →
      ∀ v, Relation.ReflTransGen (Blocks h) app v →
        ∃ path, Route h app path v ∧ Said (notesOf h path v) r.findings

structure Listing (app : Obj) (name : String) (list : List (String × Obj)) (r : Report) : Prop where
  named : h.inspect app = .ok name
  listed : h.ivars app = .ok list
  shareable : r.shareable = r.findings.isEmpty
  first : List.Forall₂ (fun l f => moduleFinding h ("app (" ++ name ++ ")") l.1 l.2 = .ok f)
    ((blocking h list).take MAX_FINDINGS) r.findings

variable {h}

theorem shareable_diagnosed {app : Obj} (shareable : h.shareable app = true) :
    Diagnosis h app ⟨true, []⟩ := by
  constructor
  · exact shareable.symm
  · simp [shareable]
  · exact nofun
  · intro blocked
    rw [shareable] at blocked
    contradiction

theorem walk_complete {app : Obj} (unshareable : h.shareable app = false) {t : State}
    (sane : Sane h app (MAX_NODES + 1) t) (grew : Grew h app initial t) (visited : Visited h app t)
    (short : t.findings.length < MAX_FINDINGS) {culprits : List Obj}
    (few : culprits.length ≤ MAX_NODES)
    (all : ∀ v, Relation.ReflTransGen (Blocks h) app v → v ∈ culprits) {v : Obj}
    (behind : Relation.ReflTransGen (Blocks h) app v) : Told h app t v := by
  have inside : t.seen ⊆ culprits := by
    intro u here
    obtain ⟨⟨path, route⟩, blocked⟩ := sane.reached u here
    exact all u (route_blocks route blocked)
  have nodes : t.nodes ≤ MAX_NODES := by
    have counted := sane.counted
    have length := (sane.once.subperm inside).length_le
    omega
  have uncut : Uncut t := ⟨short, nodes⟩
  have seen : v ∈ t.seen := (grew.explored uncut).complete (visited uncut unshareable) behind
  exact grew.told uncut v seen (by simp [initial])

theorem object_reported {app : Obj} (unshareable : h.shareable app = false) :
    (∃ r, (reportObject h app initial).1 = .ok r ∧ Diagnosis h app r) ∨
      ∃ e, (reportObject h app initial).1 = .raised e ∧ Raises h app e := by
  unfold reportObject
  rcases walk_walks MAX_NODES app "app" .start initial initial_sane with
    ⟨_, t, ran, sane, grew, visited⟩ | ⟨e, t, ran, refused⟩
  · rw [bind_ok ran]
    cases none : t.findings with
    | nil =>
      cases leaf : leafFinding h "app" app with
      | error e =>
        right
        refine ⟨e, ?_, "app", app, .start, .inl ⟨app, self_asked, ?_⟩⟩
        · simp [bind, findings, none, onlyIf, note, fromExcept]
        · exact unshareableNote_refuses (map_error leaf)
      | ok f =>
        left
        refine ⟨⟨false, [f]⟩, ?_, unshareable.symm, ?_, ?_, ?_⟩
        · simp [bind, findings, none, onlyIf, note, fromExcept, record, update]
        · simp [unshareable]
        · intro g mem
          have same : g = f := by simpa using mem
          subst same
          exact .inr ⟨rfl, leaf⟩
        · intro _ _ culprits few all v behind
          have short : t.findings.length < MAX_FINDINGS := by
            rw [none]
            decide
          obtain ⟨path, route, said⟩ := walk_complete unshareable sane grew visited short few all behind
          refine ⟨path, route, said.later ?_⟩
          rw [none]
          exact List.nil_prefix
    | cons f rest =>
      left
      refine ⟨⟨false, t.findings⟩, ?_, unshareable.symm, ?_, fun g mem => .inl (sane.sound g mem), ?_⟩
      · simp [bind, findings, none, onlyIf]
      · simp [unshareable, none]
      · intro _ short culprits few all v behind
        exact walk_complete unshareable sane grew visited short few all behind
  · right
    exact ⟨e, by rw [bind_raised ran], refused⟩

theorem module_reported (app : Obj) :
    (∃ name list r, (reportModule h app initial).1 = .ok r ∧ Listing h app name list r) ∨
      ∃ e, (reportModule h app initial).1 = .raised e ∧ Raises h app e := by
  have raises : ∀ e, (∃ w ∈ asked h app, Refuses h w e) → Raises h app e :=
    fun e refused => ⟨"app", app, .start, .inl refused⟩
  unfold reportModule
  cases named : h.inspect app with
  | error e => exact .inr ⟨e, rfl, raises e ⟨app, self_asked, .inspect named⟩⟩
  | ok name =>
    rw [fromExcept_ok_bind]
    unfold scanModule
    cases listed : h.ivars app with
    | error e => exact .inr ⟨e, rfl, raises e ⟨app, self_asked, .ivars listed⟩⟩
    | ok list =>
      rcases scanModule_lists ("app (" ++ name ++ ")") list initial (by decide) with
        ⟨said, matched, ran⟩ | ⟨l, here, e, t, failed, ran⟩
      · left
        refine ⟨name, list, ⟨said.isEmpty, said⟩, ?_, named, listed, rfl, matched⟩
        rw [ok_then, bind_ok ran]
        rfl
      · right
        refine ⟨e, ?_, raises e ⟨l.2, ivar_asked listed here, brief_refuses (map_error failed)⟩⟩
        rw [ok_then, bind_raised ran]

/-- An app with a cache that holds the app again. -/
def cyclicApp : Heap where
  kind := fun obj => if obj = 1 then .hash [(2, 0)] else .other
  shareable := fun obj => decide (1 < obj)
  isA := fun obj klass => .ok (decide (obj = 1 ∧ klass = .hash))
  frozen := fun obj => .ok (decide (obj = 0))
  ivars := fun obj => .ok (if obj = 0 then [("@cache", 1)] else [])
  inspect := fun _ => .ok "#<App>"
  className := fun obj => .ok (if obj = 1 then "Hash" else "App")
  fits := fun _ _ => true

theorem cyclic_app_reported : (report cyclicApp 0 initial).1 =
    .ok ⟨false, [⟨"app.@cache", "#<App> (Hash) is not frozen"⟩,
      ⟨"app.@cache", "Hash instance is not frozen"⟩]⟩ := by
  decide +kernel

def noMethodError : Exn := ⟨true, "undefined method for an instance of BasicObject"⟩

/-- The cache is a BasicObject. -/
def basicCache : Heap where
  kind := fun _ => .other
  shareable := fun _ => false
  isA := fun obj _ => if obj = 1 then .error noMethodError else .ok false
  frozen := fun obj => if obj = 1 then .error noMethodError else .ok true
  ivars := fun obj => if obj = 1 then .error noMethodError else .ok [("@cache", 1)]
  inspect := fun _ => .error noMethodError
  className := fun obj => if obj = 1 then .error noMethodError else .ok "App"
  fits := fun _ _ => true

example : (report basicCache 0 initial).1 = .raised noMethodError := by decide +kernel

end KinoCheck
