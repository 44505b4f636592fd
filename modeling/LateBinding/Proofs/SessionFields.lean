import LateBinding.Proofs.FieldAccess
import LateBinding.Proofs.Sessions

/-!
# Fields in sessions

A session is a host, and whatever the machine does in one step are events of it. A step writes a
field of an object only if it is a command or a body that sets the field, or enters a target that
writes it; no other step changes what the field shows (`Focus.spares_step`).

A call takes two steps: deciding what to run, and running it. If no body has to run, the second
step has the result (`State.Decides.step`). So in the middle of a session as well, inside of bodies
at any depth, fields read back what was written (`read_after_write`).
-/

namespace LateBinding.Session

variable {s s' : State} {o : ObjectRef} {name : String} {v : Value}

namespace State

/-- The session as a program with an engine and objects. -/
def host (s : State) : Host Body := ⟨s.engine, s.heap⟩

/-! ## Steps that leave all objects alone -/

theorem LeadsTo.spares (h : s.LeadsTo s') (hheap : s'.heap = s.heap) :
    Host.Spares o name s.host s'.host := by
  rw [host, host, hheap]
  refine Relation.ReflTransGen.lift (fun g => (⟨g, s.heap⟩ : Host Body)) ?_ _ _ h
  rintro g g' ⟨op, -, rfl⟩
  exact ⟨.operate op, Host.Event.not_writes_operate op, rfl⟩

theorem keep_heap (label : Option String) (t : Target Body) (guard : Option Guard) :
    (s.keep label t guard).heap = s.heap := by
  cases label <;> rfl

theorem onEngine_heap {α : Type} (op : Engine Body → Except DispatchError α × Engine Body)
    (answer : α → Answer) : (s.onEngine op answer).2.heap = s.heap := by
  rw [onEngine_snd]

theorem changeObject_heap (object : Value) (change : Change Body) :
    (s.changeObject object change).2.heap = s.heap := by
  unfold changeObject
  split
  · rfl
  · exact onEngine_heap _ _

theorem resolveClass_heap (c : ClassRef) (name : String) (args : List ClassRef)
    (label : Option String) : (s.resolveClass c name args label).2.heap = s.heap := by
  unfold resolveClass
  split
  · rfl
  · exact keep_heap _ _ _

theorem resolve_heap (access : Access) (receiver : Value) (name : String) (args : List Value)
    (label : Option String) : (s.resolve access receiver name args label).2.heap = s.heap := by
  unfold resolve
  rcases s.engine.resolve access receiver name args with ⟨found, engine⟩
  cases found with
  | error e => rfl
  | ok r => exact keep_heap _ _ _

theorem openSite_heap (id : Nat) (access : Access) (name : String) :
    (s.openSite id access name).2.heap = s.heap := by
  unfold openSite
  split <;> rfl

theorem resetSite_heap (key : SiteKey) : (s.resetSite key).2.heap = s.heap := by
  rw [resetSite, onSite_snd]

theorem callSite_heap (key : SiteKey) (receiver : Value) (args : List Value) (k : ResultStack)
    (otherwise : Focus) : (s.callSite key receiver args k otherwise).2.heap = s.heap := by
  unfold callSite
  split <;> rfl

theorem driveOn_heap (d : Drive) (k : AnswerStack) : (s.driveOn d k).2.heap = s.heap := by
  unfold driveOn
  split
  · exact congrArg State.heap (conclude_snd _ _ _)
  · exact callSite_heap _ _ _ _ _

theorem drive_heap (key : SiteKey) (calls : List (Value × List Value)) (order : List Nat)
    (times : Nat) (k : AnswerStack) : (s.drive key calls order times k).2.heap = s.heap := by
  unfold drive
  split
  · rfl
  · exact driveOn_heap _ _

end State

theorem Purpose.conclude_heap (p : Purpose) (r : Except Failure Value) (k : AnswerStack)
    (s : State) : (p.conclude r k s).2.heap = s.heap := by
  cases p with
  | result => rfl
  | siteResult key => exact congrArg State.heap (State.conclude_snd _ _ _)
  | drive d position => exact State.driveOn_heap _ _

/-- Besides those that create objects or set their fields, no command changes objects by
itself. -/
theorem Command.start_heap (c : Command) (k : AnswerStack) (s : State)
    (hcreate : ∀ label cls fields, c ≠ .create label cls fields)
    (hwrite : ∀ object name v, c ≠ .writeField object name v) :
    (c.start k s).2.heap = s.heap := by
  cases c with
  | create label cls fields => exact absurd rfl (hcreate label cls fields)
  | writeField object name v => exact absurd rfl (hwrite object name v)
  -- these do not touch the state, or only parts of it beside the heap
  | findClass | lineage | listClasses | assignable | examineParam | countCells | bind | compare
  | shape | runMethod | reports | metrics | versions | memo | call | attachSite | resetSites
  | setPolicy => rfl
  | describeClass => exact congrArg State.heap (State.describeClass_snd _)
  | ownMembers => exact congrArg State.heap (State.ownMembers_snd _ _)
  | readField => exact congrArg State.heap (State.readField_snd _ _)
  | guard => exact congrArg State.heap (State.guard_snd _)
  | sameTarget => exact congrArg State.heap (State.sameTarget_snd _ _)
  | report | decide => exact congrArg State.heap (State.onSiteOf_snd _ _)
  | inspect subject => exact congrArg State.heap (State.inspect_snd subject)
  | define | members | preview | invalidate | changeClass | applyCategory | applyTrait =>
    exact State.onEngine_heap _ _
  | changeObject => exact State.changeObject_heap _ _
  | resolveClass => exact State.resolveClass_heap _ _ _ _
  | resolve => exact State.resolve_heap _ _ _ _ _
  | openSite => exact State.openSite_heap _ _ _
  | callTarget =>
    unfold Command.start
    dsimp only
    split <;> rfl
  | callSite =>
    unfold Command.start
    dsimp only
    split
    · rfl
    · exact State.callSite_heap _ _ _ _ _
  | drive =>
    unfold Command.start
    dsimp only
    split
    · rfl
    · exact State.drive_heap _ _ _ _ _
  | resetSite =>
    unfold Command.start
    dsimp only
    split
    · rfl
    · exact State.resetSite_heap _

/-! ## Steps that write a field -/

/-- What the machine does next writes a field of an object. -/
inductive Focus.Writes (s : State) (o : ObjectRef) (name : String) : Focus → Prop
  | command {object v : Term} {o' : ObjectRef} (hobject : s.value object = .object o')
      (ho : o'.id = o.id) (k : AnswerStack) :
      Writes s o name (.command (.writeField object name v) k)
  | body {i : Invocation} {o' : ObjectRef} (hreceiver : i.receiver = .object o')
      (ho : o'.id = o.id) (k : ResultStack) : Writes s o name (.body (.writeField name) i k)
  | call {o' : ObjectRef} (ho : o'.id = o.id) (args : List Value) (k : ResultStack) :
      Writes s o name (.call (.ok (.writeField name)) (.object o') args k)

theorem State.enter_host (t : Target Body) (receiver : Value) (args : List Value)
    (k : ResultStack) : (s.enter t receiver args k).2.host = (s.host.enter t receiver args).2 := by
  simp only [State.enter, Host.enter, State.host]
  cases t.enter receiver args s.heap with
  | finished => rfl
  | running body name args written => cases written <;> rfl

theorem Command.spares_start (c : Command) (k : AnswerStack) (s : State)
    (hc : ¬ Focus.Writes s o name (.command c k)) :
    Host.Spares o name s.host (c.start k s).2.host := by
  -- two kinds of commands change objects themselves, and they are events of the host
  by_cases hcreate : ∃ label cls fields, c = .create label cls fields
  · obtain ⟨label, cls, fields, rfl⟩ := hcreate
    exact .single ⟨.create (s.cls cls) (fields.map fun f => (f.1, s.value f.2)),
      Host.Event.not_writes_create _ _, rfl⟩
  by_cases hwrite : ∃ object field v, c = .writeField object field v
  · obtain ⟨object, field, v, rfl⟩ := hwrite
    simp only [Command.start, State.writeField]
    cases hobject : s.value object with
    | object other =>
      refine .single ⟨.setField other field (s.value v), ?_, rfl⟩
      rintro (⟨hid, he⟩ | ⟨-, he⟩ | ⟨-, he⟩) <;> cases he
      exact hc (.command hobject hid k)
    | _ => exact .refl
  -- all others leave the heap alone, whatever they do to the engine
  · apply State.LeadsTo.spares (Command.leadsTo_start c k s)
    apply Command.start_heap c k s
    · exact fun label cls fields h => hcreate ⟨label, cls, fields, h⟩
    · exact fun object field v h => hwrite ⟨object, field, v, h⟩

theorem Body.spares_start (b : Body) (i : Invocation) (k : ResultStack) (s : State)
    (hb : ¬ Focus.Writes s o name (.body b i k)) :
    Host.Spares o name s.host (b.start i k s).2.host := by
  cases b with
  | constant | arguments | receiver | everything | argumentText | failure | readField | program =>
    exact .refl
  | writeField field =>
    -- writing a field is an event if the receiver is an object, and nothing otherwise
    simp only [Body.start, State.setFieldOf]
    cases hreceiver : i.receiver with
    | object other =>
      refine .single ⟨.setField other field (i.args.headD .nil), ?_, rfl⟩
      rintro (⟨hid, he⟩ | ⟨-, he⟩ | ⟨-, he⟩) <;> cases he
      exact hb (.body hreceiver hid k)
    | _ => exact .refl
  | invoke => exact (State.leadsTo_call _ _ _ _ _).spares rfl
  | viaSite site =>
    unfold Body.start
    dsimp only
    split
    · exact .refl
    · exact (State.leadsTo_callSite _ _ _ _ _).spares (State.callSite_heap _ _ _ _ _)

/-- A step that does not write a field does nothing that does. -/
theorem Focus.spares_step (f : Focus) (s : State) (hf : ¬ f.Writes s o name) :
    Host.Spares o name s.host (f.step s).2.host := by
  cases f with
  | command c k => exact Command.spares_start c k s hf
  | answer a k => cases k <;> exact .refl
  | call decided receiver args k =>
    cases decided with
    | error e => exact .refl
    | ok t =>
      -- entering a target is the event, and it writes what its code writes
      refine .single ⟨.enter t receiver args, ?_, State.enter_host t receiver args k⟩
      rintro (⟨-, he⟩ | ⟨-, he⟩ | ⟨hid, he⟩) <;> cases he
      exact hf (.call hid args k)
  | body b i k => exact Body.spares_start b i k s hf
  | result r k =>
    cases k with
    | command p below =>
      exact (Purpose.leadsTo_conclude p r below s).spares (Purpose.conclude_heap p r below s)
    | written | restore => exact .refl

/-- From one moment to another, the machine writes the field in no step. -/
def Spares (o : ObjectRef) (name : String) : Focus × State → Focus × State → Prop :=
  Relation.ReflTransGen fun m m' => ¬ m.1.Writes m.2 o name ∧ m' = m.1.step m.2

theorem Spares.host {m m' : Focus × State} (h : Spares o name m m') :
    Host.Spares o name m.2.host m'.2.host := by
  induction h with
  | refl => exact .refl
  | tail _ hstep ih =>
    obtain ⟨hf, rfl⟩ := hstep
    exact ih.trans (Focus.spares_step _ _ hf)

/-! ## Calls -/

/-- The session decides what a call runs, and is about to run it then. -/
inductive State.Decides (s : State) : Host.Event Body → ResultStack → Focus × State → Prop
  | site {key : SiteKey} {site : Site Body} (hsite : s.engine.sites.get? key = some site)
      (receiver : Value) (args : List Value) (k : ResultStack) (otherwise : Focus) :
      s.Decides (.callSite key receiver args) k (s.callSite key receiver args k otherwise)
  | direct (access : Access) (receiver : Value) (asked : String) (args : List Value)
      (k : ResultStack) :
      s.Decides (.call access receiver asked args) k (s.call access receiver asked args k)

theorem step_call (decided : Except DispatchError (Target Body)) (receiver : Value)
    (args : List Value) (k : ResultStack) (s : State) :
    (Focus.step (.call decided receiver args k) s).2.host =
        (s.host.run decided receiver args).2 ∧
      ∀ r, (s.host.run decided receiver args).1 = some r →
        (Focus.step (.call decided receiver args k) s).1 = .result r k := by
  -- a finished target has its result at once, and it is the one of the host
  cases decided with
  | error e => exact ⟨rfl, fun r hr => by cases hr; rfl⟩
  | ok t =>
    refine ⟨State.enter_host t receiver args k, fun r hr => ?_⟩
    simp only [Host.run, Host.enter, State.host] at hr
    simp only [Focus.step, State.enter]
    split at hr
    · next hentered =>
      cases hr
      rw [hentered]
    · cases hr

/-- What the machine does then is the call as an event of the host. -/
theorem State.Decides.step {e : Host.Event Body} {k : ResultStack} {m : Focus × State}
    (h : s.Decides e k m) : (m.1.step m.2).2.host = (s.host.happen e).2 ∧
      ∀ r, (s.host.happen e).1 = some r → (m.1.step m.2).1 = .result r k := by
  cases h with
  | direct => exact step_call _ _ _ _ _
  | site hsite receiver args k otherwise =>
    simp only [Host.happen, Host.callSite, State.callSite, State.host,
      Engine.dispatch_of_site hsite]
    exact step_call _ _ _ _ _

/-- In the middle of a session, a call that writes a property that is a field results in the
written value. Calls that read it result in that value until a step writes the field. -/
theorem read_after_write {write : Host.Event Body} {k : ResultStack} {m : Focus × State}
    (hg : s.engine.Reachable) (ho : s.heap.Holds o) (hfield : s.host.IsField o name)
    (hwrite : write.Asks s.host .write (.object o) name [v]) (hm : s.Decides write k m) :
    (m.1.step m.2).1 = .result (.ok v) k ∧
      ∀ f s', Spares o name (m.1.step m.2) (f, s') → s'.host.IsField o name →
        ∀ read args, Host.Event.Asks s'.host .read (.object o) name args read →
          ∀ k' m', s'.Decides read k' m' → (m'.1.step m'.2).1 = .result (.ok v) k' := by
  -- the step of the call is the event of the host, so the law of the host applies
  obtain ⟨hhost, hresult⟩ := hm.step
  refine ⟨hresult _ (Host.happen_write hg hfield hwrite).1, ?_⟩
  intro f s' hspan hfield' read args hread k' m' hm'
  have hreads := Host.readsBack_of_write hg ho hfield hwrite
  rw [← hhost] at hreads
  exact hm'.step.2 _ (hreads _ hspan.host hfield' read args hread)

end LateBinding.Session
