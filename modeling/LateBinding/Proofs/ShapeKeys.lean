import LateBinding.Proofs.FieldAccess

/-!
# Shapes tell calls apart

Sites and the resolver find what they remember by the shape of a call. The shape keeps the classes
of the arguments, in place or as a list, and of the receiver its class, or the object itself if it
has members of its own. So two calls have the same shape exactly if their arguments have the same
classes, and their receivers are plain ones of one class, or one and the same object with members of
its own (`Host.Census.shape_eq_iff`).

That two references lead to one object is said by the creation that made it: a census counts the
creations of a program, and the number that an object gets is never given out again
(`Host.Census.Numbered`).
-/

namespace LateBinding

/-! ## Receivers -/

/-- The value is an object with members of its own. -/
def Registry.IsOwner {β : Type} (r : Registry β) (v : Value) : Prop :=
  ∃ o, v = .object o ∧ r.hasOwnMembers o = true

namespace Receiver

variable {β : Type} {r r' : Registry β} {v w : Value} {o : ObjectRef}

theorem ofValue_eq_plain_iff {c : ClassRef} :
    ofValue r v = .plain c ↔ ¬ r.IsOwner v ∧ v.classOf = c := by
  cases v with
  | object o =>
    have howner : r.IsOwner (.object o) ↔ r.hasOwnMembers o = true := by
      simp [Registry.IsOwner]
    rw [howner]
    simp only [ofValue]
    split <;> simp [*, Value.classOf]
  | _ => simp [ofValue, Registry.IsOwner]

theorem ofValue_eq_own_iff :
    ofValue r v = .own o ↔ v = .object o ∧ r.hasOwnMembers o = true := by
  cases v with
  | object o' =>
    simp only [ofValue, Value.object.injEq]
    split
    · next hown =>
      rw [own.injEq]
      exact ⟨fun h => ⟨h, h ▸ hown⟩, And.left⟩
    · next hplain =>
      simp only [reduceCtorEq, false_iff]
      rintro ⟨rfl, hown⟩
      exact hplain hown
  | _ => simp [ofValue]

/-- Dispatch takes two values for the same receiver if they are plain ones of one class, or one
object that has members of its own both times. -/
theorem ofValue_eq_iff : ofValue r v = ofValue r' w ↔
    (¬ r.IsOwner v ∧ ¬ r'.IsOwner w ∧ v.classOf = w.classOf) ∨
      ∃ o, v = .object o ∧ w = .object o ∧ r.hasOwnMembers o = true ∧
        r'.hasOwnMembers o = true := by
  -- the cases are those of the right side: what it counts as tells what the left has to be
  cases hw : ofValue r' w with
  | plain c =>
    obtain ⟨hplain, rfl⟩ := ofValue_eq_plain_iff.mp hw
    rw [ofValue_eq_plain_iff]
    refine ⟨fun ⟨hv, hclass⟩ => .inl ⟨hv, hplain, hclass⟩, ?_⟩
    rintro (⟨hv, -, hclass⟩ | ⟨o, -, rfl, -, hown⟩)
    · exact ⟨hv, hclass⟩
    · exact absurd ⟨o, rfl, hown⟩ hplain
  | own o =>
    obtain ⟨rfl, hown⟩ := ofValue_eq_own_iff.mp hw
    rw [ofValue_eq_own_iff]
    refine ⟨fun ⟨hv, hown'⟩ => .inr ⟨o, hv, rfl, hown', hown⟩, ?_⟩
    rintro (⟨-, hplain, -⟩ | ⟨o', rfl, ho, hown', -⟩)
    · exact absurd ⟨o, rfl, hown⟩ hplain
    · cases ho
      exact ⟨rfl, hown'⟩

end Receiver

theorem ArgShape.ofArgs_eq_iff {a b : List Value} :
    ofArgs a = ofArgs b ↔ a.map Value.classOf = b.map Value.classOf :=
  ofClasses_inj

/-! ## Objects by their creation -/

theorem Heap.size_setField (heap : Heap) (o : ObjectRef) (name : String) (v : Value) :
    (heap.setField o name v).size = heap.size := by
  unfold setField
  split
  · rfl
  · exact Array.size_modify

namespace Host

variable {β : Type} {h : Host β}

/-- The objects that an event creates. -/
def created (h : Host β) : Event β → List ObjectRef
  | .create cls fields => [(h.heap.create cls fields).1]
  | _ => []

theorem size_run (h : Host β) (decided : Except DispatchError (Target β)) (receiver : Value)
    (args : List Value) : (h.run decided receiver args).2.heap.size = h.heap.size := by
  rcases heap_run h decided receiver args with hsame | ⟨o, name, v, -, -, hset⟩
  · rw [hsame]
  · rw [hset, Heap.size_setField]

/-- Only creating an object makes it one more. -/
theorem size_happen (h : Host β) (e : Event β) :
    (h.happen e).2.heap.size = h.heap.size + (h.created e).length := by
  cases e with
  | operate => rfl
  | create => exact Array.size_push _
  | setField o name v => exact Heap.size_setField _ _ _ _
  | callSite key receiver args =>
    simp only [happen, callSite]
    split
    · rfl
    · exact size_run _ _ _ _
  | call access receiver name args => exact size_run _ _ _ _
  | enter t receiver args => exact size_run h (.ok t) receiver args

/-- A program, with the references to the objects that it created, oldest first. -/
structure Census (β : Type) where
  host : Host β
  objects : List ObjectRef

namespace Census

variable {c d : Census β} {n i : Nat} {v w : Value} {o : ObjectRef}

/-- A program that has just begun. -/
def start (s : Settings) : Census β := ⟨⟨.build s, .empty⟩, []⟩

def happen (c : Census β) (e : Event β) : Census β :=
  ⟨(c.host.happen e).2, c.objects ++ c.host.created e⟩

def run (c : Census β) (events : List (Event β)) : Census β := events.foldl happen c

/-- Events lead from one moment of a program to another. -/
def LeadsTo (c d : Census β) : Prop := ∃ events, c.run events = d

def registry (c : Census β) : Registry β := c.host.engine.registry

/-- The value is the object that was created after `n` others. -/
def IsObject (c : Census β) (n : Nat) (v : Value) : Prop :=
  ∃ o, c.objects[n]? = some o ∧ v = .object o

/-- The value can occur in the program: if it is an object, it was created. -/
def Knows (c : Census β) (v : Value) : Prop := ∀ o, v = .object o → o ∈ c.objects

/-- Objects are numbered from 1 in the order of their creation. -/
structure Numbered (c : Census β) : Prop where
  ids : c.objects.map (·.id) = List.range' 1 c.objects.length
  size : c.host.heap.size = c.objects.length

theorem Numbered.start (s : Settings) : (start s : Census β).Numbered := ⟨rfl, rfl⟩

theorem Numbered.happen (hc : c.Numbered) (e : Event β) : (c.happen e).Numbered where
  size := by
    show (c.host.happen e).2.heap.size = (c.objects ++ c.host.created e).length
    rw [size_happen, hc.size, List.length_append]
  ids := by
    show (c.objects ++ c.host.created e).map (·.id) =
      List.range' 1 (c.objects ++ c.host.created e).length
    -- a new object is numbered by the size of the heap, hence one past the objects so far
    cases e with
    | create cls fields =>
      have hnew : ((c.host.heap.create cls fields).1).id = 1 + c.objects.length := by
        rw [← hc.size, Nat.add_comm]
        rfl
      simp only [created, List.map_append, List.map_cons, List.map_nil, List.length_append,
        List.length_cons, List.length_nil, hc.ids, hnew, Nat.zero_add, List.range'_1_concat]
    | _ => simpa only [created, List.append_nil] using hc.ids

theorem Numbered.leadsTo (hc : c.Numbered) (hd : c.LeadsTo d) : d.Numbered := by
  obtain ⟨events, rfl⟩ := hd
  induction events generalizing c with
  | nil => exact hc
  | cons e events ih => exact ih (hc.happen e)

/-- An object stands at the place that its number says. -/
theorem Numbered.id_eq (hc : c.Numbered) (ho : c.objects[n]? = some o) : o.id = n + 1 := by
  have hid : (c.objects.map (·.id))[n]? = some o.id := by
    rw [List.getElem?_map, ho, Option.map_some]
  obtain ⟨hn, hget⟩ := List.getElem?_eq_some_iff.mp hid
  rw [List.getElem_of_eq hc.ids, List.getElem_range'] at hget
  omega

/-- So every object has one creation. -/
theorem Numbered.isObject_iff (hc : c.Numbered) (ho : c.objects[n]? = some o) :
    c.IsObject i (.object o) ↔ i = n := by
  constructor
  · rintro ⟨o', ho', heq⟩
    cases heq
    have hi := hc.id_eq ho'
    have hn := hc.id_eq ho
    omega
  · rintro rfl
    exact ⟨o, ho, rfl⟩

/-- Creations are only ever added to the census. -/
theorem LeadsTo.objects (hd : c.LeadsTo d) : c.objects <+: d.objects := by
  obtain ⟨events, rfl⟩ := hd
  induction events generalizing c with
  | nil => exact List.prefix_rfl
  | cons e events ih => exact (List.prefix_append _ _).trans (ih (c := c.happen e))

theorem LeadsTo.getElem?_objects (hd : c.LeadsTo d) (ho : c.objects[n]? = some o) :
    d.objects[n]? = some o := by
  obtain ⟨later, hlater⟩ := hd.objects
  rw [← hlater, List.getElem?_append_left (List.getElem?_eq_some_iff.mp ho).1, ho]

/-! ## Shapes -/

/-- What shapes keep of calls. The shape of arguments shows their classes in order, and is the same
for two lists exactly if their classes are. Let two calls be made of a program, one at some moment
and one at the same moment or later. They have the same shape exactly if the classes of their
arguments are the same and so are the receivers: either neither has members of its own when it is
called, and their classes are the same, or both have and are the object that one and the same
creation made. -/
theorem shape_eq_iff {s : Settings} (hc : (start s).LeadsTo c) (hd : c.LeadsTo d) (hv : c.Knows v)
    (hw : d.Knows w) (a b : List Value) :
    (ArgShape.ofArgs a).toList = a.map Value.classOf ∧
    (ArgShape.ofArgs a = ArgShape.ofArgs b ↔ a.map Value.classOf = b.map Value.classOf) ∧
    (Shape.ofCall c.registry v a = Shape.ofCall d.registry w b ↔
      a.map Value.classOf = b.map Value.classOf ∧
      ((¬ c.registry.IsOwner v ∧ ¬ d.registry.IsOwner w ∧ v.classOf = w.classOf) ∨
        (c.registry.IsOwner v ∧ d.registry.IsOwner w ∧
          ∃ n, (∀ i, c.IsObject i v ↔ i = n) ∧ ∀ i, d.IsObject i w ↔ i = n))) := by
  refine ⟨ArgShape.toList_ofClasses _, ArgShape.ofArgs_eq_iff, ?_⟩
  have hnumbered : c.Numbered := (Numbered.start s).leadsTo hc
  have hlater : d.Numbered := hnumbered.leadsTo hd
  -- only the receivers are left to compare, and of these only the ones that own members
  simp only [Shape.ofCall, Shape.mk.injEq, ArgShape.ofArgs_eq_iff, Receiver.ofValue_eq_iff]
  rw [and_comm]
  refine and_congr_right fun _ => or_congr_right ⟨?_, ?_⟩
  · rintro ⟨o, rfl, rfl, hown, hown'⟩
    -- an object that is known is the work of some creation, and keeps its number later
    obtain ⟨n, hn⟩ := List.mem_iff_getElem?.mp (hv o rfl)
    exact ⟨⟨o, rfl, hown⟩, ⟨o, rfl, hown'⟩, n, fun _ => hnumbered.isObject_iff hn,
      fun _ => hlater.isObject_iff (hd.getElem?_objects hn)⟩
  · rintro ⟨⟨o, rfl, hown⟩, ⟨o', rfl, hown'⟩, n, hcreation, hcreation'⟩
    -- the creation of the one is that of the other, and it made one object
    obtain ⟨_, hn, heq⟩ := (hcreation n).mpr rfl
    cases heq
    obtain ⟨_, hn', heq'⟩ := (hcreation' n).mpr rfl
    cases heq'
    cases (hd.getElem?_objects hn).symm.trans hn'
    exact ⟨o, rfl, rfl, hown, hown'⟩

/-- There are a class and two objects of it. -/
def sampleCensus : Census Unit :=
  (start .default).run [.operate (.define ⟨"A", none, [], false, []⟩ []), .create ⟨8⟩ [],
    .create ⟨8⟩ []]

/-- The first object got members of its own. -/
def sampleLater : Census Unit :=
  sampleCensus.run [.operate (.changeObject ⟨1, ⟨8⟩⟩ (.setMethodMissing (some ())))]

/-- Calls of the two objects had one shape, and since then the first object has another. -/
theorem shape_eq_sampleCensus :
    ((start .default).LeadsTo sampleCensus ∧ sampleCensus.LeadsTo sampleLater ∧
      sampleCensus.Knows (.object ⟨1, ⟨8⟩⟩) ∧ sampleCensus.Knows (.object ⟨2, ⟨8⟩⟩) ∧
      sampleLater.Knows (.object ⟨1, ⟨8⟩⟩)) ∧
    Shape.ofCall sampleCensus.registry (.object ⟨1, ⟨8⟩⟩) [.nil] =
      Shape.ofCall sampleCensus.registry (.object ⟨2, ⟨8⟩⟩) [.nil] ∧
    Shape.ofCall sampleCensus.registry (.object ⟨2, ⟨8⟩⟩) [.nil] ≠
      Shape.ofCall sampleLater.registry (.object ⟨1, ⟨8⟩⟩) [.nil] := by
  have hc : (start .default).LeadsTo sampleCensus := ⟨_, rfl⟩
  have hd : sampleCensus.LeadsTo sampleLater := ⟨_, rfl⟩
  have hknows : ∀ n o, sampleCensus.objects[n]? = some o → sampleCensus.Knows (.object o) :=
    -- what `Knows` asks for is about objects only, and these two are the first created
    fun n o hn _ heq => by
      cases heq
      exact List.mem_of_getElem? hn
  have hfirst : sampleCensus.Knows (.object ⟨1, ⟨8⟩⟩) := hknows 0 _ rfl
  have hsecond : sampleCensus.Knows (.object ⟨2, ⟨8⟩⟩) := hknows 1 _ rfl
  have hlater : sampleLater.Knows (.object ⟨1, ⟨8⟩⟩) := fun o ho => hd.objects.subset (hfirst o ho)
  have hplain : ∀ o, ¬ sampleCensus.registry.IsOwner (.object o) := by
    rintro _ ⟨o, -, hown⟩
    cases hown
  have howner : sampleLater.registry.IsOwner (.object ⟨1, ⟨8⟩⟩) := ⟨_, rfl, rfl⟩
  refine ⟨⟨hc, hd, hfirst, hsecond, hlater⟩, ?_, fun heq => ?_⟩
  · obtain ⟨-, -, hshape⟩ := shape_eq_iff hc ⟨[], rfl⟩ hfirst hsecond [.nil] [.nil]
    exact hshape.mpr ⟨rfl, .inl ⟨hplain _, hplain _, rfl⟩⟩
  · obtain ⟨-, -, hshape⟩ := shape_eq_iff hc hd hsecond hlater [.nil] [.nil]
    -- the two ways to have one shape ask the first object to be plain later, or the second to own
    -- members
    obtain ⟨-, ⟨-, hnot, -⟩ | ⟨howns, -⟩⟩ := hshape.mp heq
    · exact hnot howner
    · exact hplain _ howns

end Census

end Host

end LateBinding
