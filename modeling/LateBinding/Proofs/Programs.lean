import LateBinding.Proofs.TwinEngines

/-!
# Programs cannot tell twins apart

A program asks an engine for operations, one after another, and chooses each of them by all
answers so far. Whatever bodies and hooks do between the operations they ask for is part of the
program, so nothing is assumed of them. Stamps and counters are no answers.

A program that applies no trait and dispatches on known arguments gets the same answers from
twins, even if one of them is tuned all the time (`Engine.Twins.transcript`).
-/

namespace LateBinding.Engine

variable {β : Type}

/-- What an operation answers. -/
inductive Operation.Answer (β : Type)
  | done
  | declared (r : Except DispatchError ClassRef)
  | changed (r : Except DispatchError Unit)
  | members (r : Except DispatchError (MemberTable β))
  | resolved (r : Except DispatchError (Target β))
  | opened (r : Except DispatchError Unit)
  | attached (key : SiteKey)
  /-- What a call through a site is to run; nothing if there is no such site. -/
  | decided (r : Option (Except DispatchError (Target β)))

def answer (g : Engine β) : Operation β → Operation.Answer β
  | .define d methods => .declared (g.define d methods).1
  | .changeClass c change => .changed (g.changeClass c change).1
  | .changeObject o change => .changed (g.changeObject o change).1
  | .applyCategory c methods => .changed (g.applyCategory c methods).1
  | .applyTrait c iface => .changed (g.applyTrait c iface).1
  | .invalidate c => .changed (g.invalidate c).1
  | .membersOf c => .members (g.membersOf c).1
  | .resolve access receiver name args => .resolved (g.decideUncached access receiver name args).1
  | .resolveClass c name args => .resolved (g.resolveClass c name args).1
  | .openSite id access name => .opened ((g.openSite id access name).1.map fun _ => ())
  | .attach id access name capacity => .attached (g.attach (.create id access name capacity)).1
  | .dispatch key receiver args => .decided (g.dispatch key receiver args).1
  | .versionOf _ | .clearMemo | .drop _ | .resetSite _ | .resetSites | .setPolicy _ => .done

/-- The operation that is asked for after some answers, newest first. -/
abbrev Program (β : Type) := List (Operation.Answer β) → Operation β

/-- The answers that a program has after some steps, newest first, and the engine then. -/
def transcript (program : Program β) : Nat → List (Operation.Answer β) → Engine β →
    List (Operation.Answer β) × Engine β
  | 0, answers, g => (answers, g)
  | n + 1, answers, g =>
    let op := program answers
    transcript program n (g.answer op :: answers) (g.perform op)

/-- The same, with other operations before each step, planned by the number of steps left. -/
def tunedTranscript (plan : Nat → List (Operation β)) (program : Program β) : Nat →
    List (Operation.Answer β) → Engine β → List (Operation.Answer β) × Engine β
  | 0, answers, g => (answers, g)
  | n + 1, answers, g =>
    let g := (plan n).foldl perform g
    let op := program answers
    tunedTranscript plan program n (g.answer op :: answers) (g.perform op)

/-- Whatever the program asks for in some steps is orderly. -/
def OrderlyFor (program : Program β) : Nat → List (Operation.Answer β) → Engine β → Prop
  | 0, _, _ => True
  | n + 1, answers, g =>
    let op := program answers
    Orderly g op ∧ OrderlyFor program n (g.answer op :: answers) (g.perform op)

variable {g g' : Engine β} {op : Operation β}

theorem Twins.answer (h : g'.Twins g) (hop : Orderly g op) : g'.answer op = g.answer op := by
  -- an answer is a result on the registry, a decision of a call, or says nothing
  cases op with
  | define => exact congrArg _ (h.define _ _)
  | changeClass c change => exact congrArg _ (h.onRegistry' hop.2 rfl)
  | changeObject o change => exact congrArg _ (h.onRegistry' hop.2 rfl)
  | applyCategory c methods => exact congrArg _ (h.onRegistry' hop.2 rfl)
  | applyTrait c iface => exact absurd rfl (hop.2 c iface)
  | invalidate c => exact congrArg _ (h.onRegistry' hop.2 rfl)
  | membersOf => exact congrArg _ h.membersOf
  | resolve => exact congrArg _ h.decideUncached
  | resolveClass => exact congrArg _ (h.resolveClass _)
  | openSite => exact congrArg _ h.openSite
  | attach => exact congrArg _ (h.attach _ _)
  | dispatch => exact congrArg _ h.dispatch
  | versionOf | clearMemo | drop | resetSite | resetSites | setPolicy => rfl

theorem Twins.tuneAll (h : g'.Twins g) {ops : List (Operation β)} (hops : ∀ op ∈ ops, op.Tunes) :
    (ops.foldl Engine.perform g').Twins g := by
  induction ops generalizing g' with
  | nil => exact h
  | cons op ops ih =>
    rw [List.forall_mem_cons] at hops
    exact ih (h.tune hops.1) hops.2

/-- A program gets the same answers from twins, though one is tuned before each step. -/
theorem Twins.transcript (h : g'.Twins g) {plan : Nat → List (Operation β)}
    (hplan : ∀ n, ∀ op ∈ plan n, op.Tunes) (program : Program β) (n : Nat)
    (answers : List (Operation.Answer β)) (horderly : OrderlyFor program n answers g) :
    (g'.tunedTranscript plan program n answers).1 = (g.transcript program n answers).1 := by
  -- the program sees its answers only, so both sides ask for the same operation each time
  induction n generalizing g' g answers with
  | zero => rfl
  | succ n ih =>
    obtain ⟨hop, hrest⟩ := horderly
    have htuned := h.tuneAll (hplan n)
    -- tuning leaves the engines twins, and twins answer this operation alike
    simp only [Engine.tunedTranscript, Engine.transcript, htuned.answer hop]
    exact ih (htuned.perform hop) _ hrest

/-- Fresh engines are twins, whatever their settings. -/
theorem twins_build (settings' settings : Settings) :
    (build settings' : Engine β).Twins (build settings) where
  orderly' := ⟨settings', .refl⟩
  orderly := ⟨settings, .refl⟩
  registry := .refl _
  members _ := rfl
  nextSerial := rfl

/-- An instance of the first class that is declared. -/
def sampleInstance : Value := .object ⟨1, ⟨8⟩⟩

/-- A class with a method, a site, and calls; after each answered call the class gets a narrower
method. -/
def sampleProgram : Program Unit
  | [] => .define ⟨"A", none, [], false, []⟩ [⟨⟨"m", [.any], false⟩, .body ()⟩]
  | [_] => .openSite 0 .method "m"
  | .decided (some (.ok _)) :: _ =>
    .changeClass ⟨8⟩ (.addMethod ⟨⟨"m", [.ofClass ⟨8⟩], false⟩, .body ()⟩)
  | _ => .dispatch (.numbered 0) sampleInstance [sampleInstance]

theorem orderlyFor_sampleProgram : OrderlyFor sampleProgram 5 [] (build .default) := by
  have hknown : ∀ g : Engine Unit, g.registry.hierarchy.Declares ⟨8⟩ →
      ∀ v ∈ [sampleInstance], g.Known v := by
    rintro g hdeclares v hv o rfl
    -- the one value that is mentioned is an object of the class declared first
    cases List.mem_singleton.mp hv
    exact hdeclares
  exact ⟨⟨trivial, nofun⟩, ⟨trivial, nofun⟩, ⟨hknown _ (by decide), nofun⟩, ⟨trivial, nofun⟩,
    ⟨hknown _ (by decide), nofun⟩, trivial⟩

/-- A reset of the site of the program and of the memo. -/
def sampleUpkeep : List (Operation Unit) := [.resetSite (.numbered 0), .clearMemo]

theorem tunes_sampleUpkeep : ∀ op ∈ sampleUpkeep, op.Tunes := by
  intro op hop
  rcases List.mem_pair.mp hop with rfl | rfl
  · exact .resetSite _
  · exact .clearMemo

end LateBinding.Engine
