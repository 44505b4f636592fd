import LateBinding.Proofs.TwinSessions

/-!
# Machines in lockstep

The machines of two twin sessions are about to do the same, with the same things waiting for it,
except that a drive may have noted other phases of its site. Each step keeps them so
(`Focus.twins_step`), if no trait is applied and objects are created of declared classes only
(`Focus.Orderly`).

The relations between what waits are indexed by a predicate that holds of all values in it, which
in the end is that the engine knows them. As engines come to know more classes, the predicate gets
weaker, so all relations are monotone in it.
-/

namespace LateBinding.Session

variable {P Q : Value → Prop} {s' s : State} {key : SiteKey} {receiver : Value} {args : List Value}

/-! ## What waits -/

/-- What holds of the values of an invocation. -/
structure Invocation.All (P : Value → Prop) (i : Invocation) : Prop where
  receiver : P i.receiver
  args : ∀ v ∈ i.args, P v

/-- The drives are at the same call and got the same results. -/
structure Drive.Twins (P : Value → Prop) (d' d : Drive) : Prop where
  key : d'.key = d.key
  calls : d'.calls = d.calls
  order : d'.order = d.order
  number : d'.number = d.number
  left : d'.left = d.left
  last : d'.trace.last = d.trace.last
  results : d'.trace.results = d.trace.results
  values : ∀ call ∈ d.calls, P call.1 ∧ ∀ v ∈ call.2, P v

inductive Purpose.Twins (P : Value → Prop) : Purpose → Purpose → Prop
  | result : Twins P .result .result
  | siteResult (key : SiteKey) : Twins P (.siteResult key) (.siteResult key)
  | drive {d' d : Drive} (hd : d'.Twins P d) (position : Nat) :
    Twins P (.drive d' position) (.drive d position)

mutual

inductive AnswerStack.Twins (P : Value → Prop) : AnswerStack → AnswerStack → Prop
  | session : AnswerStack.Twins P .session .session
  | body {i : Invocation} {bindings : Table String Value} {below' below : ResultStack}
    (rest : List Command) (last : Body) (hi : i.All P)
    (hbindings : ∀ name v, bindings.get? name = some v → P v)
    (hbelow : ResultStack.Twins P below' below) :
    AnswerStack.Twins P (.body rest last i bindings below') (.body rest last i bindings below)

inductive ResultStack.Twins (P : Value → Prop) : ResultStack → ResultStack → Prop
  | command {p' p : Purpose} {below' below : AnswerStack} (hp : p'.Twins P p)
    (hbelow : AnswerStack.Twins P below' below) :
    ResultStack.Twins P (.command p' below') (.command p below)
  | written {v : Value} {below' below : ResultStack} (hv : P v)
    (hbelow : ResultStack.Twins P below' below) :
    ResultStack.Twins P (.written v below') (.written v below)
  | restore {bindings : Table String Value} {below' below : ResultStack}
    (hbindings : ∀ name v, bindings.get? name = some v → P v)
    (hbelow : ResultStack.Twins P below' below) :
    ResultStack.Twins P (.restore bindings below') (.restore bindings below)

end

/-- The machines are about to do the same. -/
inductive Focus.Twins (P : Value → Prop) : Focus → Focus → Prop
  | command (c : Command) {k' k : AnswerStack} (hk : k'.Twins P k) :
    Twins P (.command c k') (.command c k)
  | answer {a' a : Answer} {k' k : AnswerStack} (ha : a'.observed = a.observed)
    (hk : k'.Twins P k) : Twins P (.answer a' k') (.answer a k)
  | call (decided : Except DispatchError (Target Body)) {receiver : Value} {args : List Value}
    {k' k : ResultStack} (hreceiver : P receiver) (hargs : ∀ v ∈ args, P v) (hk : k'.Twins P k) :
    Twins P (.call decided receiver args k') (.call decided receiver args k)
  | body (b : Body) {i : Invocation} {k' k : ResultStack} (hi : i.All P) (hk : k'.Twins P k) :
    Twins P (.body b i k') (.body b i k)
  | result {r : Except Failure Value} {k' k : ResultStack} (hr : ∀ v, r = .ok v → P v)
    (hk : k'.Twins P k) : Twins P (.result r k') (.result r k)

/-! ### Weaker predicates -/

section

variable (hPQ : ∀ v, P v → Q v)
include hPQ

theorem Invocation.All.mono {i : Invocation} (h : i.All P) : i.All Q :=
  ⟨hPQ _ h.receiver, fun v hv => hPQ v (h.args v hv)⟩

theorem Drive.Twins.mono {d' d : Drive} (h : d'.Twins P d) : d'.Twins Q d :=
  { h with values := fun call hcall =>
      ⟨hPQ _ (h.values call hcall).1, fun v hv => hPQ v ((h.values call hcall).2 v hv)⟩ }

theorem Purpose.Twins.mono {p' p : Purpose} (h : p'.Twins P p) : p'.Twins Q p := by
  cases h with
  | result => exact .result
  | siteResult key => exact .siteResult key
  | drive hd position => exact .drive (hd.mono hPQ) position

mutual

theorem AnswerStack.Twins.mono {k' k : AnswerStack} : k'.Twins P k → k'.Twins Q k
  | .session => .session
  | .body rest last hi hbindings hbelow =>
    .body rest last (hi.mono hPQ) (fun name v hv => hPQ v (hbindings name v hv))
      (ResultStack.Twins.mono hbelow)

theorem ResultStack.Twins.mono {k' k : ResultStack} : k'.Twins P k → k'.Twins Q k
  | .command hp hbelow => .command (hp.mono hPQ) (AnswerStack.Twins.mono hbelow)
  | .written hv hbelow => .written (hPQ _ hv) (ResultStack.Twins.mono hbelow)
  | .restore hbindings hbelow =>
    .restore (fun name v hv => hPQ v (hbindings name v hv)) (ResultStack.Twins.mono hbelow)

end

end

/-! ### Drives -/

namespace Drive.Twins

variable {d' d : Drive} {position : Nat}

theorem next? (h : d'.Twins P d) : d'.next? = d.next? := by
  unfold Drive.next?
  rw [h.left, h.order, h.number, h.calls]

theorem values_next? (h : d'.Twins P d) (hnext : d.next? = some (position, receiver, args)) :
    P receiver ∧ ∀ v ∈ args, P v := by
  unfold Drive.next? at hnext
  split at hnext
  · cases hnext
  · split at hnext
    · cases hnext
    · obtain ⟨call, hcall, heq⟩ := Option.map_eq_some_iff.mp hnext
      cases heq
      exact h.values _ (Array.mem_of_getElem? hcall)

theorem advance (h : d'.Twins P d) : d'.advance.Twins P d.advance :=
  { h with
    number := congrArg (· + 1) h.number
    left := congrArg (· - 1) h.left }

theorem notePhase_results (t : Trace) (number : Nat) (phase : Phase) :
    (t.notePhase number phase).last = t.last ∧ (t.notePhase number phase).results = t.results := by
  unfold Trace.notePhase
  split
  · exact ⟨rfl, rfl⟩
  · exact ⟨rfl, rfl⟩

/-- Whether a result is noted depends on the results that were noted before. -/
theorem noteResult_congr {t' t : Trace} (hlast : t'.last = t.last)
    (hresults : t'.results = t.results) (number position : Nat) (r : Except Failure Value) :
    (t'.noteResult number position r).last = (t.noteResult number position r).last ∧
      (t'.noteResult number position r).results = (t.noteResult number position r).results := by
  unfold Trace.noteResult
  rw [hlast, hresults]
  split
  · split
    · exact ⟨hlast, hresults⟩
    · exact ⟨rfl, rfl⟩
  · exact ⟨rfl, rfl⟩

theorem note (h : d'.Twins P d) (position : Nat) (phase' phase : Phase)
    (r : Except Failure Value) : (d'.note position phase' r).Twins P (d.note position phase r) := by
  obtain ⟨hlast', hresults'⟩ := notePhase_results d'.trace d.number phase'
  obtain ⟨hlast, hresults⟩ := notePhase_results d.trace d.number phase
  have hnoted := noteResult_congr ((hlast'.trans h.last).trans hlast.symm)
    ((hresults'.trans h.results).trans hresults.symm) d.number position r
  unfold Drive.note
  rw [h.number]
  exact { h with number := rfl, last := hnoted.1, results := hnoted.2 }

end Drive.Twins

/-! ## Moments -/

/-- Two twin sessions whose machines are about to do the same, with values that are known. -/
structure TwinMoments (m' m : Focus × State) : Prop where
  state : m'.2.Twins m.2
  focus : m'.1.Twins m.2.engine.Known m.1

theorem TwinMoments.of_effects {p' p : Answer × State} {k' k : AnswerStack}
    (h : State.TwinEffects p' p) (hk : k'.Twins p.2.engine.Known k) :
    TwinMoments (.answer p'.1 k', p'.2) (.answer p.1 k, p.2) :=
  ⟨h.state, .answer h.answer hk⟩

namespace State

/-! ### Calls -/

section

variable (h : s'.Twins s)
include h

theorem Twins.call {k' k : ResultStack} (access : Access) (name : String)
    (hreceiver : s.engine.Known receiver) (hargs : ∀ v ∈ args, s.engine.Known v)
    (hk : k'.Twins s.engine.Known k) :
    TwinMoments (s'.call access receiver name args k') (s.call access receiver name args k) := by
  -- resolving is one operation on both engines, which are twins again after it
  have hstate := h.perform (.resolve access receiver name args) ⟨hargs, nofun⟩
  dsimp only [Engine.perform] at hstate
  rw [← Engine.decideUncached_snd, ← Engine.decideUncached_snd] at hstate
  have hknows : ∀ v, s.engine.Known v → (s.call access receiver name args k).2.engine.Known v :=
    fun v => (leadsTo_call access receiver name args k).knows h.reachable
  have hdecided : (s'.engine.decideUncached access receiver name args).1 =
      (s.engine.decideUncached access receiver name args).1 := h.engine.decideUncached
  unfold State.call at hknows ⊢
  dsimp only at hknows ⊢
  rw [hdecided]
  exact ⟨hstate, .call _ (hknows _ hreceiver) (fun v hv => hknows v (hargs v hv)) (hk.mono hknows)⟩

theorem Twins.callSite {k' k : ResultStack} {otherwise' otherwise : Focus}
    (hreceiver : s.engine.Known receiver) (hargs : ∀ v ∈ args, s.engine.Known v)
    (hk : k'.Twins s.engine.Known k)
    (hotherwise : ∀ P : Value → Prop, (∀ v, s.engine.Known v → P v) →
      otherwise'.Twins P otherwise) :
    TwinMoments (s'.callSite key receiver args k' otherwise')
      (s.callSite key receiver args k otherwise) := by
  have hstate := h.perform (.dispatch key receiver args) ⟨hargs, nofun⟩
  have hknows : ∀ v, s.engine.Known v →
      (s.callSite key receiver args k otherwise).2.engine.Known v :=
    fun v => (leadsTo_callSite key receiver args k otherwise).knows h.reachable
  have hdecided : (s'.engine.dispatch key receiver args).1 =
      (s.engine.dispatch key receiver args).1 := h.engine.dispatch
  unfold State.callSite at hknows ⊢
  dsimp only [Engine.perform] at hstate
  -- what both engines decided is the same, so one case split serves both machines
  generalize s'.engine.dispatch key receiver args = out', s.engine.dispatch key receiver args = out
    at hstate hdecided hknows
  obtain ⟨decided', g'⟩ := out'
  obtain ⟨decided, g⟩ := out
  obtain rfl : decided' = decided := hdecided
  cases decided' with
  | none => exact ⟨hstate, hotherwise _ hknows⟩
  | some decided =>
    exact ⟨hstate,
      .call decided (hknows _ hreceiver) (fun v hv => hknows v (hargs v hv)) (hk.mono hknows)⟩

theorem Twins.conclude {k' k : AnswerStack} {answer' answer : Site Body → Answer} {o : Observation}
    (hanswer' : ∀ site, (answer' site).observed = o) (hanswer : ∀ site, (answer site).observed = o)
    (hk : k'.Twins s.engine.Known k) :
    TwinMoments (s'.conclude key answer' k') (s.conclude key answer k) := by
  have hk₁ : k'.Twins (s.onSite key answer).2.engine.Known k := by
    rw [onSite_snd]
    exact hk
  exact .of_effects (h.onSite hanswer' hanswer) hk₁

theorem Twins.driveOn {d' d : Drive} {k' k : AnswerStack} (hd : d'.Twins s.engine.Known d)
    (hk : k'.Twins s.engine.Known k) : TwinMoments (s'.driveOn d' k') (s.driveOn d k) := by
  unfold State.driveOn
  rw [hd.next?, hd.key]
  -- both drives stand at the same call, or are both at their end
  split
  · have hanswer' : ∀ site : Site Body,
        (d'.answer site).observed = .series d.trace.results.reverse := by
      intro site
      rw [← hd.results]
      rfl
    exact h.conclude hanswer' (fun _ => rfl) hk
  · next position receiver args hnext =>
    have hvalues := hd.values_next? hnext
    exact h.callSite hvalues.1 hvalues.2 (.command (.drive hd.advance position) hk)
      fun P hP => .answer rfl (hk.mono hP)

theorem Twins.drive {k' k : AnswerStack} {calls : List (Value × List Value)} (order : List Nat)
    (times : Nat) (hcalls : ∀ call ∈ calls, s.engine.Known call.1 ∧ ∀ v ∈ call.2, s.engine.Known v)
    (hk : k'.Twins s.engine.Known k) :
    TwinMoments (s'.drive key calls order times k') (s.drive key calls order times k) := by
  unfold State.drive
  rcases h.site_cases key with ⟨hs', hs⟩ | ⟨site', site, hs', hs⟩
  · rw [hs', hs]
    exact ⟨h, .answer rfl hk⟩
  · rw [hs', hs]
    exact h.driveOn ⟨rfl, rfl, rfl, rfl, rfl, rfl, rfl,
      fun call hcall => hcalls call (List.mem_toArray.mp hcall)⟩ hk

theorem Twins.enter {k' k : ResultStack} (t : Target Body) (hreceiver : s.engine.Known receiver)
    (hargs : ∀ v ∈ args, s.engine.Known v) (hk : k'.Twins s.engine.Known k) :
    TwinMoments (s'.enter t receiver args k') (s.enter t receiver args k) := by
  have hknown : (t.enter receiver args s.heap).KnownTo s.engine :=
    t.known_enter hargs h.settled.heap
  unfold State.enter
  rw [h.heap]
  -- entering does the same to the equal heaps, so it ends or goes on for both alike
  generalize t.enter receiver args s.heap = e at hknown
  cases e with
  | finished r heap =>
    refine ⟨h.withHeap hknown.2, .result (fun v hv => ?_) hk⟩
    cases r with
    | error f => cases hv
    | ok w => cases hv; exact hknown.1 _ rfl
  | running b name args written =>
    have hi : Invocation.All s.engine.Known ⟨receiver, name, args⟩ := ⟨hreceiver, hknown.1⟩
    cases written with
    | none => exact ⟨h, .body b hi hk⟩
    | some v => exact ⟨h, .body b hi (.written (hknown.2 v rfl) hk)⟩

theorem Twins.fieldOf (v : Value) (name : String) : s'.fieldOf v name = s.fieldOf v name := by
  unfold State.fieldOf
  rw [h.heap]

theorem Twins.known_fieldOf (v : Value) (name : String) : s.engine.Known (s.fieldOf v name) := by
  unfold State.fieldOf
  split
  · exact nofun
  · next o _ =>
    cases hfield : s.heap.field? o name with
    | none => exact nofun
    | some w => exact h.settled.heap o name w hfield

theorem Twins.setFieldOf (receiver : Value) (name : String) {v : Value} (hv : s.engine.Known v) :
    (s'.setFieldOf receiver name v).Twins (s.setFieldOf receiver name v) := by
  unfold State.setFieldOf
  rw [h.heap]
  split
  · exact h
  · exact h.withHeap (h.settled.heap.setField _ name hv)

end

end State

/-! ## Steps -/

theorem Invocation.All.proceed {i : Invocation} (hi : i.All P) (commands : List Command)
    (last : Body) {bindings : Table String Value}
    (hbindings : ∀ name v, bindings.get? name = some v → P v) {k' k : ResultStack}
    (hk : k'.Twins P k) :
    (i.proceed commands last bindings k').Twins P (i.proceed commands last bindings k) := by
  cases commands with
  | nil => exact .body last hi (.restore hbindings hk)
  | cons c rest => exact .command c (.body rest last hi hbindings hk)

theorem Body.twins_start (h : s'.Twins s) (b : Body) {i : Invocation} (hi : i.All s.engine.Known)
    {k' k : ResultStack} (hk : k'.Twins s.engine.Known k) :
    TwinMoments (b.start i k' s') (b.start i k s) := by
  -- the results are equal and known, which is what a result on top of twin stacks needs
  have hdone : ∀ {v' v : Value}, v' = v → s.engine.Known v →
      (Focus.result (.ok v') k').Twins s.engine.Known (.result (.ok v) k) := by
    rintro _ v rfl hv
    refine .result (fun w hw => ?_) hk
    cases hw
    exact hv
  cases b with
  | constant t => exact ⟨h, hdone (congrFun h.value t) (h.settled.value t)⟩
  | arguments | everything | argumentText => exact ⟨h, hdone rfl nofun⟩
  | receiver => exact ⟨h, hdone rfl hi.receiver⟩
  | failure text => exact ⟨h, .result nofun hk⟩
  | readField name =>
    exact ⟨h, hdone (h.fieldOf i.receiver name) (h.known_fieldOf i.receiver name)⟩
  | writeField name =>
    have hwritten : s.engine.Known (i.args.headD .nil) := by
      cases hargs : i.args with
      | nil => exact nofun
      | cons v vs => exact hi.args v (hargs ▸ List.mem_cons_self)
    have hfocus := hdone (h.fieldOf i.receiver name) (h.known_fieldOf i.receiver name)
    rw [← State.setFieldOf_engine i.receiver name (i.args.headD .nil)] at hfocus
    exact ⟨h.setFieldOf i.receiver name hwritten, hfocus⟩
  | invoke method => exact h.call .method method hi.receiver hi.args hk
  | viaSite site =>
    unfold Body.start
    dsimp only
    rw [h.site?]
    split
    · exact ⟨h, .result nofun hk⟩
    · exact h.callSite hi.receiver hi.args hk fun P hP => .result nofun (hk.mono hP)
  | program commands result =>
    unfold Body.start
    rw [h.bindings]
    exact ⟨(h.bind "self" hi.receiver).bind "args" nofun,
      hi.proceed commands result h.settled.bindings hk⟩

theorem Purpose.twins_conclude (h : s'.Twins s) {p' p : Purpose} (hp : p'.Twins s.engine.Known p)
    (r : Except Failure Value) {k' k : AnswerStack} (hk : k'.Twins s.engine.Known k) :
    TwinMoments (p'.conclude r k' s') (p.conclude r k s) := by
  cases hp with
  | result => exact ⟨h, .answer rfl hk⟩
  | siteResult key => exact h.conclude (o := .returned r) (fun _ => rfl) (fun _ => rfl) hk
  | drive hd position => exact h.driveOn (hd.note position _ _ r) hk

/-- The command applies no trait, and creates no object of an unknown class. -/
def Command.Orderly (s : State) : Command → Prop
  | .applyTrait .. => False
  | .create _ c _ => s.hierarchy.Declares (s.cls c)
  | _ => True

/-- Twins start a command alike. -/
theorem Command.twins_start (h : s'.Twins s) {c : Command} (hc : c.Orderly s) {k' k : AnswerStack}
    (hk : k'.Twins s.engine.Known k) : TwinMoments (c.start k' s') (c.start k s) := by
  -- what the stacks below hold stays known while the command starts
  have hk₁ : k'.Twins (c.start k s).2.engine.Known k :=
    hk.mono fun _ => (Command.leadsTo_start c k s).knows h.reachable
  -- The terms of the command stand for the same on both sides.
  have hvalue := h.settled.value
  have hvalues := h.settled.values
  unfold Command.start at hk₁ ⊢
  simp only [h.value, h.values, h.cls, h.method, h.header, h.change, h.site?, h.hierarchy]
  cases c with
  -- Commands that only look, or concern values alone.
  | findClass | lineage | listClasses | assignable => exact .of_effects (h.say rfl) hk₁
  | compare => exact .of_effects (h.say (by rw [h.heap])) hk₁
  | examineParam => exact .of_effects (h.examineParam _ _ _ _) hk₁
  | countCells | reports | metrics => exact .of_effects (h.monitor rfl rfl) hk₁
  | describeClass c => exact .of_effects (h.describeClass _) hk₁
  | ownMembers object names => exact .of_effects (h.ownMembers _ _) hk₁
  | create label c fields =>
    refine .of_effects (h.create label hc fun f hf => ?_) hk₁
    obtain ⟨field, -, rfl⟩ := List.mem_map.mp hf
    exact hvalue field.2
  | bind label t => exact ⟨h.bind label (hvalue t), .answer rfl hk⟩
  | readField => exact .of_effects (h.readField _ _) hk₁
  | writeField object name v => exact .of_effects (h.writeField _ _ (hvalue v)) hk₁
  | shape receiver args other => exact .of_effects (h.shape _ _ _) hk₁
  | guard => exact .of_effects (h.guard _) hk₁
  | sameTarget => exact .of_effects (h.sameTarget _ _) hk₁
  | report | decide => exact .of_effects (h.onSiteOf _ (fun _ => rfl) fun _ => rfl) hk₁
  | inspect subject => exact .of_effects (h.inspect subject) hk₁
  -- Commands that are operations on classes or members.
  | define d =>
    exact .of_effects (h.onEngine (.define (s.header d) (d.methods.map s.method))
      ⟨trivial, nofun⟩ (fun _ => rfl) (h.engine.define _ _) fun _ => rfl) hk₁
  | members => exact .of_effects (h.members _ _) hk₁
  | preview => exact .of_effects (h.preview _ _ _) hk₁
  | versions => exact .of_effects (h.versions _) hk₁
  | invalidate c =>
    exact .of_effects (h.doOnEngine (.invalidate (s.cls c)) ⟨trivial, nofun⟩ rfl fun _ => rfl)
      hk₁
  | changeClass c change =>
    exact .of_effects (h.doOnEngine (.changeClass (s.cls c) (s.change change))
      ⟨trivial, nofun⟩ rfl fun _ => rfl) hk₁
  | changeObject => exact .of_effects (h.changeObject _ _) hk₁
  | applyCategory c methods =>
    exact .of_effects (h.doOnEngine (.applyCategory (s.cls c) (methods.map s.method))
      ⟨trivial, nofun⟩ rfl fun _ => rfl) hk₁
  | applyTrait => exact hc.elim
  -- Commands that resolve or call.
  | runMethod m receiver args =>
    exact ⟨h, .call _ (hvalue receiver) (hvalues args) (.command .result hk)⟩
  | resolveClass => exact .of_effects (h.resolveClass _ _ _ _) hk₁
  | resolve access receiver name args label =>
    exact .of_effects (h.resolve _ _ _ (hvalues args) _) hk₁
  | memo clear => exact .of_effects (h.memo clear) hk₁
  | callTarget label receiver args =>
    dsimp only
    rcases h.kept_cases label with ⟨hkept', hkept⟩ | ⟨kept', kept, hkept', hkept, htarget⟩
    · rw [hkept', hkept]
      exact ⟨h, .answer rfl hk⟩
    · rw [hkept', hkept]
      dsimp only
      rw [htarget]
      exact ⟨h, .call _ (hvalue receiver) (hvalues args) (.command .result hk)⟩
  | call access receiver name args =>
    exact h.call access name (hvalue receiver) (hvalues args) (.command .result hk)
  -- Commands on sites and the policy.
  | openSite => exact .of_effects (h.openSite _ _ _) hk₁
  | attachSite => exact .of_effects (h.attachSite _ _ _ _ _) hk₁
  | callSite site receiver args =>
    dsimp only
    split
    · exact ⟨h, .answer rfl hk⟩
    · exact h.callSite (hvalue receiver) (hvalues args) (.command (.siteResult _) hk)
        fun P hP => .answer rfl (hk.mono hP)
  | drive site calls order times =>
    dsimp only
    split
    · exact ⟨h, .answer rfl hk⟩
    · refine h.drive order times (fun call hcall => ?_) hk
      obtain ⟨terms, -, rfl⟩ := List.mem_map.mp hcall
      exact ⟨hvalue terms.1, hvalues terms.2⟩
  | resetSite site =>
    dsimp only at hk₁ ⊢
    split at hk₁
    · exact ⟨h, .answer rfl hk⟩
    · exact .of_effects (h.resetSite _) hk₁
  | resetSites =>
    exact ⟨h.perform .resetSites ⟨trivial, nofun⟩, .answer rfl hk₁⟩
  | setPolicy changes =>
    exact .of_effects ⟨rfl, h.perform (.setPolicy changes) ⟨trivial, nofun⟩⟩ hk₁

/-- Whatever is next, it is no command that is out of order. -/
def Focus.Orderly (f : Focus) (s : State) : Prop :=
  match f with
  | .command c _ => c.Orderly s
  | _ => True

/-- One step of both machines leaves them about to do the same. -/
theorem Focus.twins_step {f' f : Focus} (h : TwinMoments (f', s') (f, s)) (hf : f.Orderly s) :
    TwinMoments (f'.step s') (f.step s) := by
  obtain ⟨hs, hfocus⟩ := h
  cases hfocus with
  | command c hk => exact Command.twins_start hs hf hk
  | answer ha hk =>
    -- an answer ends the script or is noted for the body that waits for it
    cases hk with
    | session => exact ⟨hs, .answer ha .session⟩
    | body rest last hi hbindings hbelow =>
      exact ⟨hs.note ha, hi.proceed rest last hbindings hbelow⟩
  | call decided hreceiver hargs hk =>
    cases decided with
    | error e => exact ⟨hs, .result nofun hk⟩
    | ok t => exact hs.enter t hreceiver hargs hk
  | body b hi hk => exact Body.twins_start hs b hi hk
  | @result r _ _ hr hk =>
    cases hk with
    | command hp hbelow => exact Purpose.twins_conclude hs hp r hbelow
    | written hv hbelow =>
      refine ⟨hs, .result (fun w hw => ?_) hbelow⟩
      cases r with
      | error f => cases hw
      | ok => cases hw; exact hv
    | restore hbindings hbelow => exact ⟨hs.withBindings hbindings, .result hr hbelow⟩

end LateBinding.Session
