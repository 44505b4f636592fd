import LateBinding.Proofs.SiteRuns
import LateBinding.Session.Run

/-!
# Sessions are runs

A session does nothing to its engine but operations, whether one of its own commands asks for
them or a command inside a body. So at every moment of a session, also in the middle of nested
calls, the engine is one that operations lead to from a fresh one (`reachable_moment`), and
what holds of all reachable engines holds there.
-/

namespace LateBinding.Session

namespace State

/-- Operations lead from the engine of `s` to that of `s'`. -/
def LeadsTo (s s' : State) : Prop := Engine.Run Engine.Anything s.engine s'.engine

variable {s s' s'' : State}

theorem LeadsTo.of_eq (h : s'.engine = s.engine) : s.LeadsTo s' := by
  rw [LeadsTo, h]
  exact .refl

theorem LeadsTo.of_perform (op : Engine.Operation Body) (h : s'.engine = s.engine.perform op) :
    s.LeadsTo s' :=
  .single ⟨op, trivial, h⟩

theorem LeadsTo.trans (h : s.LeadsTo s') (h' : s'.LeadsTo s'') : s.LeadsTo s'' :=
  Relation.ReflTransGen.trans h h'

theorem LeadsTo.reachable (h : s.LeadsTo s') (hs : s.engine.Reachable) : s'.engine.Reachable :=
  hs.run h

/-! ## Commands that make no calls -/

theorem onEngine_snd {α : Type} (op : Engine Body → Except DispatchError α × Engine Body)
    (answer : α → Answer) : (s.onEngine op answer).2 = { s with engine := (op s.engine).2 } := by
  unfold onEngine
  split <;> rename_i heq <;> rw [heq]

theorem LeadsTo.of_onEngine {α : Type} {op : Engine Body → Except DispatchError α × Engine Body}
    {answer : α → Answer} (operation : Engine.Operation Body)
    (h : (op s.engine).2 = s.engine.perform operation) : s.LeadsTo (s.onEngine op answer).2 := by
  rw [onEngine_snd]
  exact .of_perform operation h

theorem onSite_snd (key : SiteKey) (answer : Site Body → Answer) :
    (s.onSite key answer).2 = s := by
  unfold onSite
  split <;> rfl

theorem onSiteOf_snd (t : SiteTerm) (answer : Site Body → Answer) :
    (s.onSiteOf t answer).2 = s := by
  unfold onSiteOf withSite
  split
  · exact onSite_snd _ _
  · rfl

theorem describeClass_snd (c : ClassRef) : (s.describeClass c).2 = s := by
  unfold describeClass
  split <;> rfl

theorem ownMembers_snd (object : Value) (names : List String) :
    (s.ownMembers object names).2 = s := by
  unfold ownMembers
  split <;> rfl

theorem readField_snd (object : Value) (name : String) :
    (s.readField object name).2 = s := by
  unfold readField
  split <;> rfl

theorem writeField_engine (object : Value) (name : String) (v : Value) :
    (s.writeField object name v).2.engine = s.engine := by
  unfold writeField
  split <;> rfl

theorem guard_snd (label : String) : (s.guard label).2 = s := by
  unfold guard
  split <;> rfl

theorem sameTarget_snd (a b : String) : (s.sameTarget a b).2 = s := by
  unfold sameTarget
  split <;> rfl

theorem keep_engine (label : Option String) (t : Target Body) (guard : Option Guard) :
    (s.keep label t guard).engine = s.engine := by
  cases label <;> rfl

theorem leadsTo_versions (cs : List ClassRef) : s.LeadsTo (s.versions cs).2 := by
  -- The fold hands the engine on from class to class, so the induction is over all of them.
  suffices h : ∀ (acc : List (Except DispatchError Nat) × Engine Body),
      Engine.Run Engine.Anything acc.2 (cs.foldl (fun acc c =>
        (acc.1 ++ [(acc.2.versionOf c).1], (acc.2.versionOf c).2)) acc).2 from h ([], s.engine)
  induction cs with
  | nil => exact fun _ => .refl
  | cons c cs ih =>
    intro acc
    have hfirst : Engine.Step Engine.Anything acc.2 (acc.2.versionOf c).2 :=
      ⟨.versionOf c, trivial, rfl⟩
    exact .head hfirst (ih ((acc.1 ++ [(acc.2.versionOf c).1], (acc.2.versionOf c).2)))

theorem leadsTo_changeObject (object : Value) (change : Change Body) :
    s.LeadsTo (s.changeObject object change).2 := by
  unfold changeObject
  split
  · exact .of_eq rfl
  · rename_i o _
    exact .of_onEngine (.changeObject o change) rfl

theorem leadsTo_resolveClass (c : ClassRef) (name : String) (args : List ClassRef)
    (label : Option String) : s.LeadsTo (s.resolveClass c name args label).2 := by
  refine .of_perform (.resolveClass c name args) ?_
  rw [Engine.perform]
  unfold resolveClass
  split <;> rename_i heq <;> rw [heq]
  exact keep_engine _ _ _

theorem leadsTo_resolve (access : Access) (receiver : Value) (name : String) (args : List Value)
    (label : Option String) : s.LeadsTo (s.resolve access receiver name args label).2 := by
  refine .of_perform (.resolve access receiver name args) ?_
  rw [Engine.perform]
  unfold resolve
  rcases s.engine.resolve access receiver name args with ⟨found, engine⟩
  cases found with
  | error e => rfl
  | ok r => exact keep_engine _ _ _

theorem leadsTo_memo (clear : Bool) : s.LeadsTo (s.memo clear).2 := by
  cases clear with
  | false => exact .of_eq rfl
  | true => exact .of_perform .clearMemo rfl

theorem leadsTo_openSite (id : Nat) (access : Access) (name : String) :
    s.LeadsTo (s.openSite id access name).2 := by
  refine .of_perform (.openSite id access name) ?_
  rw [Engine.perform]
  unfold openSite
  split <;> rename_i heq <;> rw [heq]

theorem leadsTo_resetSite (key : SiteKey) : s.LeadsTo (s.resetSite key).2 := by
  refine .of_perform (.resetSite key) ?_
  rw [resetSite, onSite_snd]
  rfl

theorem inspect_snd (subject : Subject) : (s.inspect subject).2 = s := by
  cases subject with
  | registry | resolver | engine => rfl
  | site t => exact onSiteOf_snd _ _
  | target | object =>
    unfold inspect
    dsimp only
    split <;> rfl

/-! ## Calls -/

theorem leadsTo_call (access : Access) (receiver : Value) (name : String) (args : List Value)
    (k : ResultStack) : s.LeadsTo (s.call access receiver name args k).2 :=
  .of_perform (.resolve access receiver name args) Engine.decideUncached_snd

theorem leadsTo_callSite (key : SiteKey) (receiver : Value) (args : List Value) (k : ResultStack)
    (otherwise : Focus) : s.LeadsTo (s.callSite key receiver args k otherwise).2 := by
  refine .of_perform (.dispatch key receiver args) ?_
  rw [Engine.perform]
  unfold callSite
  split <;> rename_i heq <;> rw [heq]

theorem conclude_snd (key : SiteKey) (answer : Site Body → Answer) (k : AnswerStack) :
    (s.conclude key answer k).2 = s :=
  onSite_snd _ _

theorem leadsTo_driveOn (d : Drive) (k : AnswerStack) : s.LeadsTo (s.driveOn d k).2 := by
  unfold driveOn
  split
  · exact .of_eq (congrArg State.engine (conclude_snd _ _ _))
  · exact leadsTo_callSite _ _ _ _ _

theorem leadsTo_drive (key : SiteKey) (calls : List (Value × List Value)) (order : List Nat)
    (times : Nat) (k : AnswerStack) : s.LeadsTo (s.drive key calls order times k).2 := by
  unfold drive
  split
  · exact .of_eq rfl
  · exact leadsTo_driveOn _ _

theorem setFieldOf_engine (receiver : Value) (name : String) (v : Value) :
    (s.setFieldOf receiver name v).engine = s.engine := by
  unfold setFieldOf
  split <;> rfl

theorem enter_engine (t : Target Body) (receiver : Value) (args : List Value) (k : ResultStack) :
    (s.enter t receiver args k).2.engine = s.engine := by
  unfold enter
  split <;> rfl

end State

/-! ## Steps -/

theorem Body.leadsTo_start (b : Body) (i : Invocation) (k : ResultStack) (s : State) :
    s.LeadsTo (b.start i k s).2 := by
  cases b with
  | constant | arguments | receiver | everything | argumentText | failure | readField | program =>
    exact .of_eq rfl
  | writeField => exact .of_eq (State.setFieldOf_engine _ _ _)
  | invoke => exact State.leadsTo_call _ _ _ _ _
  | viaSite site =>
    unfold Body.start
    dsimp only
    split
    · exact .of_eq rfl
    · exact State.leadsTo_callSite _ _ _ _ _

theorem Purpose.leadsTo_conclude (p : Purpose) (r : Except Failure Value) (k : AnswerStack)
    (s : State) : s.LeadsTo (p.conclude r k s).2 := by
  cases p with
  | result => exact .of_eq rfl
  | siteResult key => exact .of_eq (congrArg State.engine (State.conclude_snd _ _ _))
  | drive d position => exact State.leadsTo_driveOn _ _

/-- Starting a command, whatever it is, does nothing to the engine but operations. -/
theorem Command.leadsTo_start (c : Command) (k : AnswerStack) (s : State) :
    s.LeadsTo (c.start k s).2 := by
  cases c with
  -- Commands that only look, or concern values alone.
  | findClass | lineage | listClasses | assignable | examineParam | countCells | create | bind
  | compare | shape | runMethod | reports | metrics => exact .of_eq rfl
  | describeClass => exact .of_eq (congrArg State.engine (State.describeClass_snd _))
  | ownMembers => exact .of_eq (congrArg State.engine (State.ownMembers_snd _ _))
  | readField => exact .of_eq (congrArg State.engine (State.readField_snd _ _))
  | writeField => exact .of_eq (State.writeField_engine _ _ _)
  | guard => exact .of_eq (congrArg State.engine (State.guard_snd _))
  | sameTarget => exact .of_eq (congrArg State.engine (State.sameTarget_snd _ _))
  | report | decide => exact .of_eq (congrArg State.engine (State.onSiteOf_snd _ _))
  | inspect subject => exact .of_eq (congrArg State.engine (State.inspect_snd subject))
  -- Commands that are operations on classes or members.
  | define d => exact .of_onEngine (.define (s.header d) (d.methods.map s.method)) rfl
  | members c names => exact .of_onEngine (.membersOf (s.cls c)) rfl
  | preview c change names => exact .of_onEngine (.membersOf (s.cls c)) rfl
  | versions cs => exact State.leadsTo_versions _
  | invalidate c => exact .of_onEngine (.invalidate (s.cls c)) rfl
  | changeClass c change =>
    exact .of_onEngine (.changeClass (s.cls c) (s.change change)) rfl
  | changeObject object change => exact State.leadsTo_changeObject _ _
  | applyCategory c methods =>
    exact .of_onEngine (.applyCategory (s.cls c) (methods.map s.method)) rfl
  | applyTrait c trait =>
    exact .of_onEngine (.applyTrait (s.cls c) (s.cls trait)) rfl
  -- Commands that resolve or call.
  | resolveClass => exact State.leadsTo_resolveClass _ _ _ _
  | resolve => exact State.leadsTo_resolve _ _ _ _ _
  | memo => exact State.leadsTo_memo _
  | callTarget =>
    unfold Command.start
    dsimp only
    split <;> exact .of_eq rfl
  | call => exact State.leadsTo_call _ _ _ _ _
  -- Commands on sites and the policy.
  | openSite => exact State.leadsTo_openSite _ _ _
  | attachSite label id access name capacity =>
    exact .of_perform (.attach id access name capacity) rfl
  | callSite =>
    unfold Command.start
    dsimp only
    split
    · exact .of_eq rfl
    · exact State.leadsTo_callSite _ _ _ _ _
  | drive =>
    unfold Command.start
    dsimp only
    split
    · exact .of_eq rfl
    · exact State.leadsTo_drive _ _ _ _ _
  | resetSite =>
    unfold Command.start
    dsimp only
    split
    · exact .of_eq rfl
    · exact State.leadsTo_resetSite _
  | resetSites => exact .of_perform .resetSites rfl
  | setPolicy changes => exact .of_perform (.setPolicy changes) rfl

/-- One step does nothing to the engine but operations. -/
theorem Focus.leadsTo_step (f : Focus) (s : State) : s.LeadsTo (f.step s).2 := by
  cases f with
  | command c k => exact Command.leadsTo_start c k s
  | answer a k => cases k <;> exact .of_eq rfl
  | call decided receiver args k =>
    cases decided with
    | error e => exact .of_eq rfl
    | ok t => exact .of_eq (State.enter_engine t receiver args k)
  | body b i k => exact Body.leadsTo_start b i k s
  | result r k =>
    cases k with
    | command p below => exact Purpose.leadsTo_conclude p r below s
    | written | restore => exact .of_eq rfl

/-! ## Runs -/

theorem Focus.leadsTo_run (steps : Nat) (f : Focus) (s : State) :
    s.LeadsTo (Focus.run steps f s).2 := by
  fun_induction Focus.run steps f s with
  | case1 | case2 => exact .of_eq rfl
  | case3 steps f s _ next after hstep ih =>
    have hfirst := Focus.leadsTo_step f s
    rw [hstep] at hfirst
    exact hfirst.trans ih

theorem State.leadsTo_runAll (commands : List Command) (s : State) :
    s.LeadsTo (s.runAll commands).2 := by
  induction commands generalizing s with
  | nil => exact .of_eq rfl
  | cons c rest ih =>
    have hcommand : s.LeadsTo (c.run s).2 := Focus.leadsTo_run maxSteps (.command c .session) s
    have hreply : (c.run s).2.LeadsTo ((c.run s).2.reply (c.run s).1).2 := .of_eq rfl
    exact (hcommand.trans hreply).trans (ih _)

/-- After any number of commands, and any number of steps of the next one, the engine of a
session is reachable. -/
theorem reachable_moment {settings : Settings} {engine : Engine Body}
    (hcreate : Engine.create settings = .ok engine) (before : List Command) (c : Command)
    (steps : Nat) :
    (Focus.run steps (.command c .session)
      ((State.start engine).runAll before).2).2.engine.Reachable := by
  have hfresh : (State.start engine).engine.Reachable := by
    obtain ⟨rfl, -⟩ := Engine.eq_build_of_create hcreate
    exact ⟨settings, .refl⟩
  have hbefore := (State.leadsTo_runAll before (State.start engine)).reachable hfresh
  exact (Focus.leadsTo_run steps (.command c .session) _).reachable hbefore

/-- No body ever finds a site of its session in disorder. -/
theorem consistent_moment {settings : Settings} {engine : Engine Body}
    (hcreate : Engine.create settings = .ok engine) (before : List Command) (c : Command)
    (steps : Nat) {key : SiteKey} {site : Site Body}
    (hsite : (Focus.run steps (.command c .session)
      ((State.start engine).runAll before).2).2.engine.sites.get? key = some site) :
    site.Consistent :=
  ((reachable_moment hcreate before c steps).valid hsite).consistent

end LateBinding.Session
