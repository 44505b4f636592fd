import LateBinding.Proofs.FieldLookup
import LateBinding.Proofs.KnownValues

/-!
# Hosts

A host is a program that an engine is embedded in, with its objects. It works the engine,
creates objects, sets their fields, makes calls through sites or without, and calls targets that
it kept. The bodies that it runs are its own, so whatever a body does are events like all
others, and a call that comes to running a body has no result of its own yet.

Of all that can happen, only writing a field changes an object (`Host.heap_happen`). A call
writes a field only as a write of the property of that name.
-/

namespace LateBinding

variable {β : Type} {receiver : Value} {args : List Value} {heap heap' : Heap}
variable {result : Except Fault Value}

/-- Only writing a field changes objects: that field of the receiver. -/
theorem Request.heap_of_enter {req : Request β}
    (h : req.enter receiver heap = .finished result heap') : heap' = heap ∨
      ∃ o name v, req = .writeField name v ∧ receiver = .object o ∧
        heap' = heap.setField o name v := by
  -- of what finishes at once, a built-in and a read leave the heap, and a body never gets here
  cases req with
  | run code =>
    cases code <;> cases h
    exact .inl rfl
  | assign => cases h
  | readField name =>
    left
    simp only [enter] at h
    split at h <;> cases h <;> rfl
  | writeField name v =>
    -- the write of a value that is no object fails
    cases receiver with
    | object o =>
      cases h
      exact .inr ⟨o, name, v, rfl, rfl, rfl⟩
    | _ =>
      cases h
      exact .inl rfl

namespace Target

variable {t : Target β}

theorem eq_writeField_of_request {name : String} {v : Value}
    (h : t.request args = .ok (.writeField name v)) : t = .writeField name := by
  cases t <;> simp only [request] at h
  case writeField field =>
    split at h <;> cases h
    rfl
  case method | setter => split at h <;> cases h
  all_goals cases h

theorem heap_of_enter (h : t.enter receiver args heap = .finished result heap') : heap' = heap ∨
    ∃ o name v, t = .writeField name ∧ receiver = .object o ∧ heap' = heap.setField o name v := by
  unfold enter at h
  split at h
  · cases h
    exact .inl rfl
  · next req hreq =>
    rcases Request.heap_of_enter h with hsame | ⟨o, name, v, rfl, ho, hset⟩
    · exact .inl hsame
    · exact .inr ⟨o, name, v, eq_writeField_of_request hreq, ho, hset⟩

end Target

/-- An engine in a program, with the objects of the program. -/
structure Host (β : Type) where
  engine : Engine β
  heap : Heap

namespace Host

/-- What can happen in a program. -/
inductive Event (β : Type)
  | operate (op : Engine.Operation β)
  | create (cls : ClassRef) (fields : List (String × Value))
  | setField (o : ObjectRef) (name : String) (v : Value)
  | callSite (key : SiteKey) (receiver : Value) (args : List Value)
  | call (access : Access) (receiver : Value) (name : String) (args : List Value)
  /-- Call a target that was kept. -/
  | enter (t : Target β) (receiver : Value) (args : List Value)

/-- Call a target. If a body has to run, there is no result yet. -/
def enter (h : Host β) (t : Target β) (receiver : Value) (args : List Value) :
    Option (Except Failure Value) × Host β :=
  match t.enter receiver args h.heap with
  | .finished result heap => (some (result.mapError .ofFault), { h with heap })
  | .running .. => (none, h)

/-- Go on with a call after it was decided what it runs. -/
def run (h : Host β) (decided : Except DispatchError (Target β)) (receiver : Value)
    (args : List Value) : Option (Except Failure Value) × Host β :=
  match decided with
  | .error e => (some (.error (.ofDispatch e)), h)
  | .ok t => h.enter t receiver args

def callSite (h : Host β) (key : SiteKey) (receiver : Value) (args : List Value) :
    Option (Except Failure Value) × Host β :=
  match h.engine.dispatch key receiver args with
  | (none, engine) => (some (.error (.ofFault .noSite)), { h with engine })
  | (some decided, engine) => { h with engine }.run decided receiver args

def call (h : Host β) (access : Access) (receiver : Value) (name : String) (args : List Value) :
    Option (Except Failure Value) × Host β :=
  let (decided, engine) := h.engine.decideUncached access receiver name args
  { h with engine }.run decided receiver args

/-- The result of an event, if it is a call that is over then, and the host after it. -/
def happen (h : Host β) : Event β → Option (Except Failure Value) × Host β
  | .operate op => (none, { h with engine := h.engine.perform op })
  | .create cls fields => (none, { h with heap := (h.heap.create cls fields).2 })
  | .setField o name v => (none, { h with heap := h.heap.setField o name v })
  | .callSite key receiver args => h.callSite key receiver args
  | .call access receiver name args => h.call access receiver name args
  | .enter t receiver args => h.enter t receiver args

variable {h h' : Host β} {e : Event β} {access : Access} {name : String} {key : SiteKey}
variable {decided : Except DispatchError (Target β)}

/-! ## Calls -/

/-- The event is a call that asks for a member of a receiver, through a site or without. -/
inductive Event.Asks (h : Host β) (access : Access) (receiver : Value) (name : String)
    (args : List Value) : Event β → Prop
  | site {key : SiteKey} {s : Site β} (hs : h.engine.sites.get? key = some s)
      (haccess : s.access = access) (hname : s.name = name) :
      Asks h access receiver name args (.callSite key receiver args)
  | direct : Asks h access receiver name args (.call access receiver name args)

theorem happen_of_no_site (hs : h.engine.sites.get? key = none) :
    h.happen (.callSite key receiver args) = (some (.error (.ofFault .noSite)), h) := by
  simp only [happen, callSite, Engine.dispatch, hs]

/-- A call runs what is answered to the question that it asks. -/
theorem happen_of_asks (hg : h.engine.Reachable) (he : e.Asks h access receiver name args) :
    ∃ answer engine, h.engine.Answers access name receiver args answer ∧ engine.Reachable ∧
      h.happen e = { h with engine }.run answer receiver args := by
  cases he with
  | @site key s hs haccess hname =>
    subst haccess hname
    obtain ⟨answer, hdecided, hanswers⟩ : ∃ answer,
        (h.engine.dispatch key receiver args).1 = some answer ∧
          h.engine.Answers s.access s.name receiver args answer := Engine.dispatch_answers hg hs
    -- that there is a site is why the dispatch decided anything, so the host runs what it decided
    have hnext : (h.engine.perform (.dispatch key receiver args)).Reachable := hg.perform trivial
    refine ⟨answer, _, hanswers, hnext, ?_⟩
    simp only [happen, callSite, Engine.perform]
    split
    · next hnone =>
      rw [hnone] at hdecided
      cases hdecided
    · next heq =>
      rw [heq] at hdecided ⊢
      cases hdecided
      rfl
  | direct =>
    have hnext : (h.engine.perform (.resolve access receiver name args)).Reachable :=
      hg.perform trivial
    refine ⟨_, _, Engine.decideUncached_answers hg access name, hnext, ?_⟩
    rw [Engine.perform, ← Engine.decideUncached_snd]
    rfl

theorem engine_run : (h.run decided receiver args).2.engine = h.engine := by
  unfold run enter
  split
  · rfl
  · split <;> rfl

/-- Whatever happens does nothing to the engine but operations. -/
theorem reachable_happen (hg : h.engine.Reachable) (e : Event β) :
    (h.happen e).2.engine.Reachable := by
  -- both kinds of call come down to the answer of the engine, and a run leaves the engine alone
  have hcall : ∀ {access receiver name args}, e.Asks h access receiver name args →
      (h.happen e).2.engine.Reachable := by
    intro access receiver name args he
    obtain ⟨answer, engine, -, hnext, hhappen⟩ := happen_of_asks hg he
    rw [hhappen, engine_run]
    exact hnext
  cases e with
  | operate op => exact hg.perform trivial
  | create | setField => exact hg
  | enter t receiver args =>
    have hsame : (h.run (.ok t) receiver args).2.engine = h.engine := engine_run
    exact (congrArg Engine.Reachable hsame).mpr hg
  | call => exact hcall .direct
  | callSite key receiver args =>
    cases hs : h.engine.sites.get? key with
    | none =>
      rw [happen_of_no_site hs]
      exact hg
    | some s => exact hcall (.site hs rfl rfl)

/-! ## What becomes of the objects -/

/-- The event writes a field of an object, directly or by the property of its name. -/
inductive Event.Writes (h : Host β) (o : ObjectRef) (name : String) (e : Event β) : Prop
  | field {o' : ObjectRef} {v : Value} (ho : o'.id = o.id) (he : e = .setField o' name v)
  | property {o' : ObjectRef} {args : List Value} (ho : o'.id = o.id)
      (he : e.Asks h .write (.object o') name args)
  | target {o' : ObjectRef} {args : List Value} (ho : o'.id = o.id)
      (he : e = .enter (.writeField name) (.object o') args)

theorem Event.Writes.of_same {o o' : ObjectRef} (hw : e.Writes h o name) (ho : o.id = o'.id) :
    e.Writes h o' name := by
  cases hw with
  | field hid he => exact .field (hid.trans ho) he
  | property hid he => exact .property (hid.trans ho) he
  | target hid he => exact .target (hid.trans ho) he

theorem Event.not_writes_operate (op : Engine.Operation β) {o : ObjectRef} :
    ¬ Event.Writes h o name (.operate op) := by
  rintro (⟨-, he⟩ | ⟨-, he⟩ | ⟨-, he⟩) <;> cases he

theorem Event.not_writes_create (cls : ClassRef) (fields : List (String × Value))
    {o : ObjectRef} : ¬ Event.Writes h o name (.create cls fields) := by
  rintro (⟨-, he⟩ | ⟨-, he⟩ | ⟨-, he⟩) <;> cases he

theorem heap_run (h : Host β) (decided : Except DispatchError (Target β)) (receiver : Value)
    (args : List Value) : (h.run decided receiver args).2.heap = h.heap ∨
      ∃ o name v, decided = .ok (.writeField name) ∧ receiver = .object o ∧
        (h.run decided receiver args).2.heap = h.heap.setField o name v := by
  cases decided with
  | error => exact .inl rfl
  | ok t =>
    simp only [run, enter]
    cases hentered : t.enter receiver args h.heap with
    | running => exact .inl rfl
    | finished result heap =>
      rcases Target.heap_of_enter hentered with hsame | ⟨o, name, v, rfl, ho, hset⟩
      · exact .inl hsame
      · exact .inr ⟨o, name, v, rfl, ho, hset⟩

/-- A call leaves all objects as they are, or writes the field that it asks to write. -/
theorem heap_of_asks (hg : h.engine.Reachable) (he : e.Asks h access receiver name args) :
    (h.happen e).2.heap = h.heap ∨
      ∃ o v, e.Writes h o name ∧ (h.happen e).2.heap = h.heap.setField o name v := by
  obtain ⟨answer, engine, hanswers, -, hhappen⟩ := happen_of_asks hg he
  rw [hhappen]
  rcases heap_run { h with engine } answer receiver args with hsame | ⟨o, field, v, rfl, rfl, hset⟩
  · exact .inl hsame
  · obtain ⟨rfl, rfl⟩ := hanswers.written hg rfl
    exact .inr ⟨o, v, .property rfl he, hset⟩

/-- Whatever happens, a single object is created, or a single field is written, or all objects
stay as they are. -/
theorem heap_happen (hg : h.engine.Reachable) (e : Event β) :
    (h.happen e).2.heap = h.heap ∨
      (∃ cls fields, (h.happen e).2.heap = (h.heap.create cls fields).2) ∨
      ∃ o name v, e.Writes h o name ∧ (h.happen e).2.heap = h.heap.setField o name v := by
  cases e with
  | operate op => exact .inl rfl
  | create cls fields => exact .inr (.inl ⟨cls, fields, rfl⟩)
  | setField o name v => exact .inr (.inr ⟨o, name, v, .field rfl rfl, rfl⟩)
  -- entering a target is no question to the engine, so the run itself tells what was written
  | enter t receiver args =>
    rcases heap_run h (.ok t) receiver args with hsame | ⟨o, name, v, ht, rfl, hset⟩
    · exact .inl hsame
    · cases ht
      exact .inr (.inr ⟨o, name, v, .target rfl rfl, hset⟩)
  | call access receiver name args =>
    rcases heap_of_asks hg .direct with hsame | ⟨o, v, hw, hset⟩
    · exact .inl hsame
    · exact .inr (.inr ⟨o, name, v, hw, hset⟩)
  -- without a site, nothing is called
  | callSite key receiver args =>
    cases hs : h.engine.sites.get? key with
    | none =>
      left
      rw [happen_of_no_site hs]
    | some s =>
      rcases heap_of_asks hg (.site hs rfl rfl) with hsame | ⟨o, v, hw, hset⟩
      · exact .inl hsame
      · exact .inr (.inr ⟨o, s.name, v, hw, hset⟩)

end Host

end LateBinding
