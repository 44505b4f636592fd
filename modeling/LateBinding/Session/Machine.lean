import LateBinding.Session.Drive
import LateBinding.Session.Effect

/-!
# The machine that runs a session

Commands make calls, calls run bodies, and bodies run commands. The machine does one step of
this at a time. What waits for an answer or a result is kept on two kinds of stacks that
alternate: below the commands of a body waits whoever called the body, and below a call waits
the command that made it, or the body that passed it on. Bodies may therefore call each other
to any depth.
-/

namespace LateBinding.Session

/-- The call that a body runs for. -/
structure Invocation where
  receiver : Value
  name : String
  args : List Value

/-- What becomes of the result of a call that a command makes. -/
inductive Purpose
  /-- The result is the answer. -/
  | result
  /-- The answer is the result together with the condition of the site. -/
  | siteResult (key : SiteKey)
  /-- The result is that of the call at a position of a drive. -/
  | drive (d : Drive) (position : Nat)

mutual

/-- Who waits for the answer of a command. -/
inductive AnswerStack
  /-- The session: the command is one of its own. -/
  | session
  /-- A body that has more commands to run before its result. The variables are those to be
  bound again afterwards. -/
  | body (rest : List Command) (last : Body) (i : Invocation) (bindings : Table String Value)
      (below : ResultStack)

/-- Who waits for the result of a call. -/
inductive ResultStack
  /-- A command. -/
  | command (p : Purpose) (below : AnswerStack)
  /-- A property write, whose result is the written value. -/
  | written (v : Value) (below : ResultStack)
  /-- A body after whose result variables are bound again. -/
  | restore (bindings : Table String Value) (below : ResultStack)

end

/-- What the machine is about to do. -/
inductive Focus
  | command (c : Command) (k : AnswerStack)
  | answer (a : Answer) (k : AnswerStack)
  /-- Run what was decided for a call. -/
  | call (decided : Except DispatchError (Target Body)) (receiver : Value) (args : List Value)
      (k : ResultStack)
  | body (b : Body) (i : Invocation) (k : ResultStack)
  | result (r : Except Failure Value) (k : ResultStack)

namespace State

def call (s : State) (access : Access) (receiver : Value) (name : String) (args : List Value)
    (k : ResultStack) : Focus × State :=
  let (decided, engine) := s.engine.decideUncached access receiver name args
  (.call decided receiver args k, { s with engine })

/-- Make a call through a site, or do something else if there is no such site. -/
def callSite (s : State) (key : SiteKey) (receiver : Value) (args : List Value)
    (k : ResultStack) (otherwise : Focus) : Focus × State :=
  match s.engine.dispatch key receiver args with
  | (none, engine) => (otherwise, { s with engine })
  | (some decided, engine) => (.call decided receiver args k, { s with engine })

def conclude (s : State) (key : SiteKey) (answer : Site Body → Answer) (k : AnswerStack) :
    Focus × State :=
  let (a, s) := s.onSite key answer
  (.answer a k, s)

/-! ### Drives -/

/-- Make the next call of a drive, or tell what the drive has told if it is over. -/
def driveOn (s : State) (d : Drive) (k : AnswerStack) : Focus × State :=
  match d.next? with
  | none => s.conclude d.key d.answer k
  | some (position, receiver, args) =>
    s.callSite d.key receiver args (.command (.drive d.advance position) k) (.answer .noSite k)

def drive (s : State) (key : SiteKey) (calls : List (Value × List Value)) (order : List Nat)
    (times : Nat) (k : AnswerStack) : Focus × State :=
  match s.engine.sites.get? key with
  | none => (.answer .noSite k, s)
  | some site =>
    s.driveOn
      { key, calls := calls.toArray, order := order.toArray, number := 0, left := times
        trace := .start site.phase } k

def phaseOf (s : State) (key : SiteKey) : Phase :=
  match s.engine.sites.get? key with
  | some site => site.phase
  | none => .cold

/-! ### Bodies -/

/-- Read a field of a value; nil where there is none. -/
def fieldOf (s : State) (v : Value) (name : String) : Value :=
  match v.asObject? with
  | none => .nil
  | some o => (s.heap.field? o name).getD .nil

def setFieldOf (s : State) (receiver : Value) (name : String) (v : Value) : State :=
  match receiver.asObject? with
  | none => s
  | some o => { s with heap := s.heap.setField o name v }

end State

/-- Go on with the next command of a body, or with its result if there is none. -/
def Invocation.proceed (i : Invocation) (commands : List Command) (last : Body)
    (bindings : Table String Value) (k : ResultStack) : Focus :=
  match commands with
  | [] => .body last i (.restore bindings k)
  | c :: rest => .command c (.body rest last i bindings k)

def Body.start (b : Body) (i : Invocation) (k : ResultStack) (s : State) : Focus × State :=
  let done (v : Value) : Focus := .result (.ok v) k
  match b with
  | .constant t => (done (s.value t), s)
  | .arguments => (done (.list i.args), s)
  | .receiver => (done i.receiver, s)
  | .everything => (done (.list [i.receiver, .str i.name, .list i.args]), s)
  | .argumentText => (done (.str (Value.list i.args).display), s)
  | .failure text => (.result (.error (.ofFault (.raised text))) k, s)
  | .readField field => (done (s.fieldOf i.receiver field), s)
  | .writeField field =>
    (done (s.fieldOf i.receiver field), s.setFieldOf i.receiver field (i.args.headD .nil))
  | .invoke method => s.call .method i.receiver method i.args k
  | .viaSite site =>
    let missing : Focus := .result (.error (.ofFault .noSite)) k
    match s.site? site with
    | none => (missing, s)
    | some key => s.callSite key i.receiver i.args k missing
  | .program commands result =>
    (i.proceed commands result s.bindings k,
      (s.bind "self" i.receiver).bind "args" (.list i.args))

def Command.start (c : Command) (k : AnswerStack) (s : State) : Focus × State :=
  let tell (p : Answer × State) : Focus × State := (.answer p.1 k, p.2)
  let onSite (t : SiteTerm) (act : SiteKey → Focus × State) : Focus × State :=
    match s.site? t with
    | none => (.answer .noSite k, s)
    | some key => act key
  match c with
  | .define d =>
    tell (s.onEngine (·.define (s.header d) (d.methods.map s.method)) fun c => .cls (some c))
  | .describeClass c => tell (s.describeClass (s.cls c))
  | .findClass name => tell (s.say (.cls (s.hierarchy.byName? name)))
  | .lineage c => tell (s.say (.lineage (.ofClass s.hierarchy (s.cls c))))
  | .listClasses => tell (s.say (.classNames (s.hierarchy.all.map s.hierarchy.nameOf)))
  | .assignable a b => tell (s.say (.flag (s.hierarchy.isAssignable (s.cls a) (s.cls b))))
  | .examineParam p args others values => tell (s.examineParam p args others values)
  | .members c names => tell (s.members (s.cls c) names)
  | .ownMembers object names => tell (s.ownMembers (s.value object) names)
  | .preview c change names => tell (s.preview (s.cls c) (s.change change) names)
  | .versions cs => tell (s.versions (cs.map s.cls))
  | .countCells => tell (s.say (.count s.registry.classCellCount))
  | .invalidate c => tell (s.doOnEngine (·.invalidate (s.cls c)))
  | .changeClass c change => tell (s.doOnEngine (·.changeClass (s.cls c) (s.change change)))
  | .changeObject object change => tell (s.changeObject (s.value object) (s.change change))
  | .applyCategory c methods =>
    tell (s.doOnEngine (·.applyCategory (s.cls c) (methods.map s.method)))
  | .applyTrait c trait => tell (s.doOnEngine (·.applyTrait (s.cls c) (s.cls trait)))
  | .create label c fields =>
    tell (s.create label (s.cls c) (fields.map fun f => (f.1, s.value f.2)))
  | .bind label t => (.answer .done k, s.bind label (s.value t))
  | .readField object name => tell (s.readField (s.value object) name)
  | .writeField object name v => tell (s.writeField (s.value object) name (s.value v))
  | .compare a b => tell (s.say (.comparison (.ofValues s.heap (s.value a) (s.value b))))
  | .shape receiver args other =>
    tell (s.shape (s.value receiver) (s.values args)
      (other.map fun o => (s.value o.1, s.values o.2)))
  | .runMethod m receiver args =>
    (.call (.ok (.method ((s.method m).install .declared 0))) (s.value receiver)
      (s.values args) (.command .result k), s)
  | .resolveClass c name args label =>
    tell (s.resolveClass (s.cls c) name (args.map s.cls) label)
  | .resolve access receiver name args label =>
    tell (s.resolve access (s.value receiver) name (s.values args) label)
  | .memo clear => tell (s.memo clear)
  | .guard label => tell (s.guard label)
  | .callTarget label receiver args =>
    match s.kept.get? label with
    | none => (.answer .invalid k, s)
    | some kept =>
      (.call (.ok kept.target) (s.value receiver) (s.values args) (.command .result k), s)
  | .sameTarget a b => tell (s.sameTarget a b)
  | .call access receiver name args =>
    s.call access (s.value receiver) name (s.values args) (.command .result k)
  | .openSite id access name => tell (s.openSite id access name)
  | .attachSite label id access name capacity =>
    tell (s.attachSite label id access name capacity)
  | .callSite site receiver args =>
    onSite site fun key =>
      s.callSite key (s.value receiver) (s.values args) (.command (.siteResult key) k)
        (.answer .noSite k)
  | .drive site calls order times =>
    onSite site fun key =>
      s.drive key (calls.map fun c => (s.value c.1, s.values c.2)) order times k
  | .resetSite site => onSite site fun key => tell (s.resetSite key)
  | .resetSites => (.answer .done k, { s with engine := s.engine.resetSites })
  | .report site => tell (s.onSiteOf site fun site => .report (site.report s.registry))
  | .reports => tell (s.say (.reports s.engine.reports))
  | .metrics => tell (s.say (.metrics s.engine.metrics))
  | .setPolicy changes => tell (s.setPolicy changes)
  | .decide site =>
    tell (s.onSiteOf site fun site => .verdict (s.engine.policy.verdict site.evidence))
  | .inspect subject => tell (s.inspect subject)

/-- Go on with a command after the result of a call that it made. -/
def Purpose.conclude (p : Purpose) (r : Except Failure Value) (k : AnswerStack) (s : State) :
    Focus × State :=
  match p with
  | .result => (.answer (.result r) k, s)
  | .siteResult key => s.conclude key (fun site => .siteResult r (.ofSite site)) k
  | .drive d position => s.driveOn (d.note position (s.phaseOf d.key) r) k

/-! ### Steps -/

def State.enter (s : State) (t : Target Body) (receiver : Value) (args : List Value)
    (k : ResultStack) : Focus × State :=
  match t.enter receiver args s.heap with
  | .finished r heap => (.result (r.mapError .ofFault) k, { s with heap })
  | .running b name args none => (.body b ⟨receiver, name, args⟩ k, s)
  | .running b name args (some v) => (.body b ⟨receiver, name, args⟩ (.written v k), s)

/-- One step. The answer of a command of the session itself is where the machine stops. -/
def Focus.step (f : Focus) (s : State) : Focus × State :=
  match f with
  | .command c k => c.start k s
  | .answer a .session => (.answer a .session, s)
  | .answer a (.body rest last i bindings k) => (i.proceed rest last bindings k, s.note a)
  | .call (.error e) _ _ k => (.result (.error (.ofDispatch e)) k, s)
  | .call (.ok t) receiver args k => s.enter t receiver args k
  | .body b i k => b.start i k s
  | .result r (.command p k) => p.conclude r k s
  | .result r (.written v k) => (.result (r.map fun _ => v) k, s)
  | .result r (.restore bindings k) => (.result r k, { s with bindings })

/-- Run until the command of the session is answered. It fails if that takes more steps than
are allowed. -/
def Focus.run : Nat → Focus → State → Answer × State
  | _, .answer a .session, s => (a, s)
  | 0, _, s => (.failed (.ofFault .endless), s)
  | steps + 1, f, s =>
    let (f, s) := f.step s
    run steps f s

/-- How many steps a command may take: more than anyone can wait for. -/
def maxSteps : Nat := 4611686018427387904

def Command.run (c : Command) (s : State) : Answer × State :=
  Focus.run maxSteps (.command c .session) s

end LateBinding.Session
