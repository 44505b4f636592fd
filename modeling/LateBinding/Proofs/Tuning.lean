import LateBinding.Proofs.Programs
import LateBinding.Proofs.TwinMachines

/-!
# Tuning is not observed

A script runs on two engines with any valid settings, and on one of them sites are reset, the memo
is cleared and thresholds are changed at any time, also in the middle of calls. The replies to its
commands are the same but for monitoring, and so are the objects in the end
(`tuning_unobservable`), provided that no trait is applied and every object is created of a
declared class. The same holds of programs whose bodies are of any kind.

Bodies cannot make what they do depend on what a command inside them tells, so no script can turn
what it monitors into a result.
-/

namespace LateBinding.Session

/-! ## Tunings -/

/-- What may be done at any time to make calls faster. -/
inductive Tuning
  | resetSite (site : SiteTerm)
  | resetSites
  | clearMemo
  | setPolicy (changes : List (Policy.Threshold × Nat))

/-- The command that does it. -/
def Tuning.command : Tuning → Command
  | .resetSite site => .resetSite site
  | .resetSites => .resetSites
  | .clearMemo => .memo true
  | .setPolicy changes => .setPolicy changes

/-- The state after a tuning, whose answer is of no interest. -/
def State.tune (s : State) (t : Tuning) : State := (t.command.run s).2

def State.tuneAll (s : State) (ts : List Tuning) : State := ts.foldl State.tune s

/-- Run like `Focus.run`, with tunings before each step and after the last one, planned by the
number of steps that are left. -/
def Focus.runTuned (plan : Nat → List Tuning) : Nat → Focus → State → Answer × State
  | left, .answer a .session, s => (a, s.tuneAll (plan left))
  | 0, _, s => (.failed (.ofFault .endless), s.tuneAll (plan 0))
  | left + 1, f, s =>
    let (f, s) := f.step (s.tuneAll (plan (left + 1)))
    runTuned plan left f s

def Command.runTuned (plan : Nat → List Tuning) (c : Command) (s : State) : Answer × State :=
  Focus.runTuned plan maxSteps (.command c .session) s

/-- Run the commands of a session with tunings, planned by the number of commands that are left
after the present one and the number of its steps that are left. -/
def State.runAllTuned (plan : Nat → Nat → List Tuning) (s : State) :
    List Command → List Reply × State
  | [] => ([], s)
  | c :: rest =>
    let (a, s) := c.runTuned (plan rest.length) s
    let (reply, s) := s.reply a
    let (replies, s) := runAllTuned plan s rest
    (reply :: replies, s)

/-! ## Orderly scripts -/

/-- The moment after some steps. -/
def Focus.after (f : Focus) (s : State) : Nat → Focus × State
  | 0 => (f, s)
  | n + 1 => Focus.after (f.step s).1 (f.step s).2 n

/-- Every command that comes up from here on is orderly. -/
def Focus.OrderlyThroughout (f : Focus) (s : State) : Prop :=
  ∀ n, (f.after s n).1.Orderly (f.after s n).2

/-- While the commands run, no trait is applied and no object is created of an unknown class. -/
def State.OrderlyRun (s : State) : List Command → Prop
  | [] => True
  | c :: rest => (Focus.command c .session).OrderlyThroughout s ∧
    OrderlyRun ((c.run s).2.reply (c.run s).1).2 rest

variable {s' s s₁ : State} {f' f : Focus} {P : Value → Prop}

/-- The machine comes to an answer by orderly steps. -/
inductive Focus.Settles : Focus → State → Prop
  | answered (a : Answer) (s : State) : Settles (.answer a .session) s
  | step {f : Focus} {s : State} (hf : f.Orderly s) (hnext : Settles (f.step s).1 (f.step s).2) :
    Settles f s

theorem Focus.Settles.orderlyThroughout (h : f.Settles s) : f.OrderlyThroughout s := by
  intro n
  -- a focus that settles is orderly at each step up to its answer, which then stays
  induction h generalizing n with
  | answered a s =>
    -- an answer to the session stays where it is
    induction n with
    | zero => trivial
    | succ n ih => exact ih
  | step hf hnext ih =>
    cases n with
    | zero => exact hf
    | succ n => exact ih n

theorem Focus.OrderlyThroughout.now (h : f.OrderlyThroughout s) : f.Orderly s := h 0

theorem Focus.OrderlyThroughout.next (h : f.OrderlyThroughout s) :
    (f.step s).1.OrderlyThroughout (f.step s).2 :=
  fun n => h (n + 1)

/-! ## Twins under tuning -/

/-- An operation that only tunes may be done to one of two twins. -/
theorem State.Twins.tunes (h : s'.Twins s) {op : Engine.Operation Body} (hop : op.Tunes) :
    State.Twins { s' with engine := s'.engine.perform op } s :=
  { h with engine := h.engine.tune hop }

/-- A command that is answered by its first step. -/
theorem Command.run_of_start {c : Command} {a : Answer}
    (hstart : c.start .session s = (.answer a .session, s₁)) : c.run s = (a, s₁) := by
  show Focus.run (4611686018427387903 + 1) (.command c .session) s = _
  rw [Focus.run, Focus.step, hstart]
  · rfl
  · intro _ h
    cases h

theorem State.Twins.tune (h : s'.Twins s) (t : Tuning) : (s'.tune t).Twins s := by
  unfold State.tune
  cases t with
  | resetSite site =>
    -- a site that is not there is no command on the engine at all
    cases hsite : s'.site? site with
    | none =>
      have hstart :
          (Command.resetSite site).start .session s' = (.answer .noSite .session, s') := by
        simp only [Command.start, hsite]
      rw [Tuning.command, Command.run_of_start hstart]
      exact h
    | some key =>
      have hstart : (Command.resetSite site).start .session s' =
          (.answer (s'.resetSite key).1 .session, (s'.resetSite key).2) := by
        simp only [Command.start, hsite]
      rw [Tuning.command, Command.run_of_start hstart, State.resetSite, State.onSite_snd]
      exact h.tunes (.resetSite key)
  | resetSites =>
    rw [Tuning.command, Command.run_of_start rfl]
    exact h.tunes .resetSites
  | clearMemo =>
    rw [Tuning.command, Command.run_of_start rfl]
    exact h.tunes .clearMemo
  | setPolicy changes =>
    rw [Tuning.command, Command.run_of_start rfl]
    exact h.tunes (.setPolicy changes)

theorem State.Twins.tuneAll (h : s'.Twins s) (ts : List Tuning) : (s'.tuneAll ts).Twins s := by
  unfold State.tuneAll
  induction ts generalizing s' with
  | nil => exact h
  | cons t ts ih => exact ih (h.tune t)

/-! ## Runs -/

theorem Focus.Twins.answered_iff (h : f'.Twins P f) :
    (∃ a', f' = .answer a' .session) ↔ ∃ a, f = .answer a .session := by
  constructor
  · rintro ⟨a', rfl⟩
    cases h with
    | answer ha hk => cases hk; exact ⟨_, rfl⟩
  · rintro ⟨a, rfl⟩
    cases h with
    | answer ha hk => cases hk; exact ⟨_, rfl⟩

/-- A tuned run and an untuned one end alike. -/
theorem Focus.twins_runTuned (plan : Nat → List Tuning) (steps : Nat)
    (h : TwinMoments (f', s') (f, s)) (horderly : f.OrderlyThroughout s) :
    State.TwinEffects (f'.runTuned plan steps s') (f.run steps s) := by
  -- by the recursion of the run: answered, out of steps, or one more step
  fun_induction Focus.run steps f s generalizing f' s' with
  | case1 steps a s =>
    obtain ⟨hstate, hfocus⟩ := h
    cases hfocus with
    | answer ha hk =>
      cases hk
      rw [Focus.runTuned]
      exact ⟨ha, hstate.tuneAll _⟩
  | case2 f s hopen =>
    -- the tuned focus is no answer either, as twins are answered together
    have hopen' : ∀ a, f' = .answer a .session → False := fun a ha =>
      (h.focus.answered_iff.mp ⟨a, ha⟩).elim hopen
    rw [Focus.runTuned.eq_2 _ _ _ hopen']
    exact ⟨rfl, h.state.tuneAll _⟩
  | case3 steps f s hopen next after hstep ih =>
    have hopen' : ∀ a, f' = .answer a .session → False := fun a ha =>
      (h.focus.answered_iff.mp ⟨a, ha⟩).elim hopen
    -- the tunings before the step leave the moments twins, and the step is the same
    have hnext := Focus.twins_step ⟨h.state.tuneAll (plan (steps + 1)), h.focus⟩ horderly.now
    have horderly' := horderly.next
    rw [hstep] at hnext horderly'
    rw [Focus.runTuned.eq_3 _ _ _ _ hopen']
    exact ih hnext horderly'

theorem State.Twins.reply (h : s'.Twins s) {a' a : Answer} (ha : a'.observed = a.observed) :
    (s'.reply a').1.observed = (s.reply a).1.observed ∧ (s'.reply a').2.Twins (s.reply a).2 := by
  refine ⟨Prod.ext ha ?_, { h with inner := rfl, settled := { h.settled with } }⟩
  show s'.inner.reverse.map _ = s.inner.reverse.map _
  rw [List.map_reverse, List.map_reverse, h.inner]

theorem State.twins_runAllTuned (plan : Nat → Nat → List Tuning) (script : List Command)
    (h : s'.Twins s) (horderly : s.OrderlyRun script) :
    (s'.runAllTuned plan script).1.map Reply.observed = (s.runAll script).1.map Reply.observed ∧
      (s'.runAllTuned plan script).2.Twins (s.runAll script).2 := by
  induction script generalizing s' s with
  | nil => exact ⟨rfl, h⟩
  | cons c rest ih =>
    have hcommand : State.TwinEffects (c.runTuned (plan rest.length) s') (c.run s) :=
      Focus.twins_runTuned _ maxSteps ⟨h, .command c .session⟩ horderly.1
    have hreply := hcommand.state.reply hcommand.answer
    obtain ⟨hreplies, hstate⟩ := ih hreply.2 horderly.2
    exact ⟨congrArg₂ List.cons hreply.1 hreplies, hstate⟩

/-- With nothing planned, a tuned run is a run. -/
theorem Focus.runTuned_nothing (steps : Nat) (f : Focus) (s : State) :
    f.runTuned (fun _ => []) steps s = f.run steps s := by
  fun_induction Focus.run steps f s with
  | case1 steps a s => rw [Focus.runTuned]; rfl
  | case2 f s hopen => rw [Focus.runTuned.eq_2 _ _ _ hopen]; rfl
  | case3 steps f s hopen next after hstep ih =>
    rw [Focus.runTuned.eq_3 _ _ _ _ hopen, ← ih]
    show Focus.runTuned _ _ (f.step s).1 (f.step s).2 = _
    rw [hstep]

theorem State.runAllTuned_nothing (s : State) (script : List Command) :
    s.runAllTuned (fun _ _ => []) script = s.runAll script := by
  induction script generalizing s with
  | nil => rfl
  | cons c rest ih =>
    simp only [State.runAllTuned, State.runAll, Command.runTuned, Command.run,
      Focus.runTuned_nothing, ih]

/-- Fresh sessions are twins, whatever the settings of their engines. -/
theorem twins_start (settings' settings : Settings) :
    (State.start (.build settings')).Twins (State.start (.build settings)) where
  engine := Engine.twins_build settings' settings
  heap := rfl
  bindings := rfl
  kept _ := rfl
  labels := rfl
  inner := rfl
  settled :=
    { bindings := fun name v hv => by
        have hnone : (Table.empty : Table String Value).get? name = none := Table.get?_empty name
        exact absurd (hnone.symm.trans hv) nofun
      heap := Heap.knownTo_empty }

/-- No tuning is observed: a script gets the same replies, but for monitoring, on engines with any
valid settings, and leaves the same objects. That stays so if sites are reset, the memo is cleared
and thresholds are changed at any time during one of the runs. Nor does any other program get
different answers, whatever its bodies do with those that it has. -/
theorem tuning_unobservable {settings settings' : Settings} {g g' : Engine Body}
    (hcreate : Engine.create settings = .ok g) (hcreate' : Engine.create settings' = .ok g')
    (script : List Command) (horderly : (State.start g).OrderlyRun script)
    (plan : Nat → Nat → List Tuning) :
    let first := (State.start g).runAll script
    let second := (State.start g').runAll script
    let tuned := (State.start g').runAllTuned plan script
    (second.1.map Reply.observed = first.1.map Reply.observed ∧
      second.2.heap = first.2.heap) ∧
    (tuned.1.map Reply.observed = first.1.map Reply.observed ∧
      tuned.2.heap = first.2.heap) ∧
    ∀ (β : Type) (program : Engine.Program β) (steps : Nat)
      (tunings : Nat → List (Engine.Operation β)), (∀ n, ∀ op ∈ tunings n, op.Tunes) →
      Engine.OrderlyFor program steps [] (.build settings) →
      ((Engine.build settings').tunedTranscript tunings program steps []).1 =
        ((Engine.build settings).transcript program steps []).1 := by
  obtain ⟨rfl, -⟩ := Engine.eq_build_of_create hcreate
  obtain ⟨rfl, -⟩ := Engine.eq_build_of_create hcreate'
  have hstart := twins_start settings' settings
  have huntuned := State.twins_runAllTuned (fun _ _ => []) script hstart horderly
  have htuned := State.twins_runAllTuned plan script hstart horderly
  -- an untuned run is one that is tuned by nothing
  rw [State.runAllTuned_nothing] at huntuned
  refine ⟨⟨huntuned.1, huntuned.2.heap⟩, ⟨htuned.1, htuned.2.heap⟩, ?_⟩
  intro β program steps tunings htunings horderly
  exact (Engine.twins_build settings' settings).transcript htunings program steps [] horderly

/-- An object of a class whose method gives its own class a narrower method, and two calls of it
through one site. -/
def sampleScript : List Command :=
  [.define ⟨"A", false, none, [], [], [⟨"m", [none], false, .program
      [.changeClass (.named "A")
        (.addMethod ⟨"m", [some (.named "Int")], false, .constant (.int 7)⟩)] .arguments⟩]⟩,
    .create "a" (.named "A") [],
    .openSite 0 .method "m",
    .callSite (.numbered 0) (.variable "a") [.int 5],
    .callSite (.numbered 0) (.variable "a") [.int 5]]

/-- Room for one entry, no memo, and thresholds that every site passes at once. -/
def sampleSettings : Settings := ⟨1, 1, 1, 1, 1, false, 0⟩

def sampleTunings : List Tuning :=
  [.resetSite (.numbered 0), .resetSites, .clearMemo, .setPolicy [(.optimize, 3)]]

theorem orderlyRun_sampleScript :
    (State.start (.build .default)).OrderlyRun sampleScript := by
  refine ⟨Focus.Settles.orderlyThroughout ?define, Focus.Settles.orderlyThroughout ?create,
    Focus.Settles.orderlyThroughout ?openSite, Focus.Settles.orderlyThroughout ?first,
    Focus.Settles.orderlyThroughout ?second, trivial⟩
  case define | openSite => exact .step trivial (.answered _ _)
  case create =>
    have hdeclares : (8 : Nat) < 9 := by decide
    exact .step hdeclares (.answered _ _)
  case first =>
    -- each call takes as many steps as its body has
    exact .step trivial <| .step trivial <| .step trivial <| .step trivial <| .step trivial <|
      .step trivial <| .step trivial <| .step trivial <| .answered _ _
  case second =>
    exact .step trivial <| .step trivial <| .step trivial <| .step trivial <| .answered _ _

/-- However its engine is tuned, the script finds the narrower method in its second call. -/
theorem tuning_unobservable_sampleScript :
    let first := (State.start (.build .default)).runAll sampleScript
    let second := (State.start (.build sampleSettings)).runAll sampleScript
    let tuned := (State.start (.build sampleSettings)).runAllTuned (fun _ _ => sampleTunings)
      sampleScript
    (State.start (.build .default)).OrderlyRun sampleScript ∧
    (second.1.map Reply.observed = first.1.map Reply.observed ∧
      second.2.heap = first.2.heap) ∧
    (tuned.1.map Reply.observed = first.1.map Reply.observed ∧
      tuned.2.heap = first.2.heap) ∧
    Engine.OrderlyFor Engine.sampleProgram 5 [] (.build .default) ∧
    ((Engine.build sampleSettings).tunedTranscript (fun _ => Engine.sampleUpkeep)
        Engine.sampleProgram 5 []).1 =
      ((Engine.build .default).transcript Engine.sampleProgram 5 []).1 := by
  have hcreate : Engine.create .default = .ok (.build .default : Engine Body) := rfl
  have hcreate' : Engine.create sampleSettings = .ok (.build sampleSettings : Engine Body) := rfl
  obtain ⟨huntuned, htuned, hprogram⟩ := tuning_unobservable hcreate hcreate' sampleScript
    orderlyRun_sampleScript fun _ _ => sampleTunings
  exact ⟨orderlyRun_sampleScript, huntuned, htuned, Engine.orderlyFor_sampleProgram,
    hprogram Unit Engine.sampleProgram 5 _ (fun _ => Engine.tunes_sampleUpkeep)
      Engine.orderlyFor_sampleProgram⟩

example : ((State.start (.build .default)).runAll sampleScript).1.map (fun r =>
    match r.answer with
    | .siteResult (.ok (.int n)) _ => some n
    | _ => none) = [none, none, none, none, some 7] := by
  decide +kernel

end LateBinding.Session
