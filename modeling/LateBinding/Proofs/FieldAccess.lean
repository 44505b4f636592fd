import LateBinding.Proofs.Hosts

/-!
# Fields read back what was written

A target for a field is shared by all objects of a class and by all values that are written, so
it must not remember either. And a property that is a field when it is written may have become
something else when it is read, or may have been something else in between.

If a property of an object is a field at the moment of a write and of a read, the read gives
what was written, provided that nothing in between wrote the field (`Host.fields_read_back`).
Sites may have cached whatever they like, and calls, changes of members, traits and resets may
have happened.
-/

namespace LateBinding

variable {o other : ObjectRef} {name field : String} {v w : Value}

/-! ## Fields of objects -/

namespace Heap

variable {heap : Heap}

/-- The object was created. -/
def Holds (heap : Heap) (o : ObjectRef) : Prop := (heap.get? o).isSome

theorem Holds.id_pos (ho : heap.Holds o) : 0 < o.id := by
  apply Nat.pos_of_ne_zero
  intro hzero
  simp [Holds, get?, hzero] at ho

theorem Holds.id_le (ho : heap.Holds o) : o.id ≤ heap.objects.size := by
  have hpos := ho.id_pos
  unfold Holds get? at ho
  rw [if_neg (by omega)] at ho
  obtain ⟨_, hfound⟩ := Option.isSome_iff_exists.mp ho
  have := (Array.getElem?_eq_some_iff.mp hfound).1
  omega

theorem Holds.setField (ho : heap.Holds o) (other : ObjectRef) (name : String) (v : Value) :
    (heap.setField other name v).Holds o := by
  rw [Holds, get?_setField]
  split
  · exact ho
  · rw [Option.isSome_map]
    exact ho

theorem Holds.get?_create (ho : heap.Holds o) (cls : ClassRef) (fields : List (String × Value)) :
    (heap.create cls fields).2.get? o = heap.get? o := by
  have hle := ho.id_le
  rw [Heap.get?_create, if_neg (by omega)]

theorem Holds.create (ho : heap.Holds o) (cls : ClassRef) (fields : List (String × Value)) :
    (heap.create cls fields).2.Holds o := by
  rw [Holds, ho.get?_create]
  exact ho

theorem field?_create_of_holds (ho : heap.Holds o) (cls : ClassRef)
    (fields : List (String × Value)) (name : String) :
    (heap.create cls fields).2.field? o name = heap.field? o name := by
  rw [field?, ho.get?_create, field?]

theorem field?_setField_self (ho : heap.Holds o) (name : String) (v : Value) :
    (heap.setField o name v).field? o name = some v := by
  have hpos := ho.id_pos
  obtain ⟨object, hobject⟩ := Option.isSome_iff_exists.mp ho
  rw [field?, get?_setField, if_neg (by omega), hobject]
  exact (Table.get?_insert _ _ _ _).trans (if_pos rfl)

/-- A write changes no other field, and no other object. -/
theorem field?_setField_of_ne (hne : other.id ≠ o.id ∨ field ≠ name) (v : Value) :
    (heap.setField o name v).field? other field = heap.field? other field := by
  rw [field?, get?_setField]
  split
  · rfl
  · next hsame =>
    -- the other object has the same number, so it is the field that differs
    have hfield : name ≠ field := by
      rcases hne with hid | hfield
      · exact absurd (.inr fun h => hid h.symm) hsame
      · exact hfield.symm
    rw [field?]
    cases heap.get? other with
    | none => rfl
    | some object => exact (Table.get?_insert _ _ _ _).trans (if_neg hfield)

theorem get?_foldl_insert {fields : List (String × Value)} (hname : ∀ p ∈ fields, p.1 ≠ name)
    (t : Table String Value) :
    (fields.foldl (fun t p => t.insert p.1 p.2) t).get? name = t.get? name := by
  induction fields generalizing t with
  | nil => rfl
  | cons p fields ih =>
    rw [List.forall_mem_cons] at hname
    rw [List.foldl_cons, ih hname.2, Table.get?_insert, if_neg hname.1]

theorem get?_create_self (heap : Heap) (cls : ClassRef) (fields : List (String × Value)) :
    (heap.create cls fields).2.get? (heap.create cls fields).1 =
      some ⟨cls, fields.foldl (fun t p => t.insert p.1 p.2) .empty⟩ := by
  rw [get?_create]
  exact if_pos rfl

theorem holds_create (heap : Heap) (cls : ClassRef) (fields : List (String × Value)) :
    (heap.create cls fields).2.Holds (heap.create cls fields).1 := by
  rw [Holds, get?_create_self]
  rfl

/-- Fields that an object was not created with are absent. -/
theorem field?_create_self {fields : List (String × Value)} (hname : ∀ p ∈ fields, p.1 ≠ name)
    (heap : Heap) (cls : ClassRef) :
    (heap.create cls fields).2.field? (heap.create cls fields).1 name = none := by
  rw [field?, get?_create_self]
  exact get?_foldl_insert hname .empty

end Heap

namespace Host

variable {β : Type} {h h' : Host β} {e : Event β}

/-! ## Spans without a write -/

/-- The value that a field shows; nil if it was never set. -/
def shown (h : Host β) (o : ObjectRef) (name : String) : Value := (h.heap.field? o name).getD .nil

/-- From `h` to `h'`, nothing writes the field. -/
def Spares (o : ObjectRef) (name : String) : Host β → Host β → Prop :=
  Relation.ReflTransGen fun h h' => ∃ e : Event β, ¬ e.Writes h o name ∧ h' = (h.happen e).2

theorem holds_happen (hg : h.engine.Reachable) (ho : h.heap.Holds o) (e : Event β) :
    (h.happen e).2.heap.Holds o := by
  rcases heap_happen hg e with hsame | ⟨cls, fields, hcreate⟩ | ⟨other, field, w, -, hset⟩
  · rw [hsame]
    exact ho
  · rw [hcreate]
    exact ho.create cls fields
  · rw [hset]
    exact ho.setField other field w

/-- What does not write a field does not change it. -/
theorem field?_happen (hg : h.engine.Reachable) (ho : h.heap.Holds o) (hw : ¬ e.Writes h o name) :
    (h.happen e).2.heap.field? o name = h.heap.field? o name := by
  -- an event writes one field at most, and if the object's, then not the one under this name
  rcases heap_happen hg e with hsame | ⟨cls, fields, hcreate⟩ | ⟨other, field, w, hother, hset⟩
  · rw [hsame]
  · rw [hcreate, Heap.field?_create_of_holds ho]
  · rw [hset]
    apply Heap.field?_setField_of_ne
    by_contra hsame
    simp only [not_or, not_not] at hsame
    obtain ⟨hid, rfl⟩ := hsame
    exact hw (hother.of_same hid.symm)

/-- As long as nothing writes a field, it shows the same value. -/
theorem Spares.shown (hspan : Spares o name h h') (hg : h.engine.Reachable)
    (ho : h.heap.Holds o) :
    h'.engine.Reachable ∧ h'.heap.Holds o ∧ h'.shown o name = h.shown o name := by
  -- that the object is there goes along: creations do not touch it, and nothing is ever removed
  induction hspan with
  | refl => exact ⟨hg, ho, rfl⟩
  | tail _ hstep ih =>
    obtain ⟨hg', ho', hshown⟩ := ih
    obtain ⟨e, hw, rfl⟩ := hstep
    refine ⟨reachable_happen hg' e, holds_happen hg' ho' e, ?_⟩
    rw [Host.shown, field?_happen hg' ho' hw]
    exact hshown

/-! ## Reading and writing -/

/-- The property of the object is a field. -/
def IsField (h : Host β) (o : ObjectRef) (name : String) : Prop :=
  h.engine.registry.FieldOnly (.ofValue h.engine.registry (.object o)) name

theorem Event.Asks.not_writes {receiver : Value} {args : List Value}
    (he : e.Asks h .read receiver name args) : ¬ e.Writes h o field := by
  intro hw
  -- a read sets no field outright, enters no target, and asks for no write
  cases hw with
  | field _ hset =>
    subst hset
    cases he
  | target _ henter =>
    subst henter
    cases he
  | property _ hwrite =>
    cases he with
    | site hs haccess =>
      cases hwrite with
      | site hs' haccess' =>
        cases hs.symm.trans hs'
        cases haccess.symm.trans haccess'
    | direct => cases hwrite

/-- Reading a field gives what it shows. -/
theorem happen_read (hg : h.engine.Reachable) (hfield : h.IsField o name) {args : List Value}
    (he : e.Asks h .read (.object o) name args) :
    (h.happen e).1 = some (.ok (h.shown o name)) := by
  obtain ⟨answer, engine, hanswers, -, hhappen⟩ := happen_of_asks hg he
  cases hanswers.field hg hfield rfl
  rw [hhappen]
  rfl

/-- Writing a field gives the written value, and sets the field. -/
theorem happen_write (hg : h.engine.Reachable) (hfield : h.IsField o name)
    (he : e.Asks h .write (.object o) name [v]) : (h.happen e).1 = some (.ok v) ∧
      (h.happen e).2.heap = h.heap.setField o name v := by
  obtain ⟨answer, engine, hanswers, -, hhappen⟩ := happen_of_asks hg he
  cases hanswers.field hg hfield rfl
  rw [hhappen]
  exact ⟨rfl, rfl⟩

/-- Whatever happens, as long as nothing writes the field, reads of it give the value. -/
def ReadsBack (h : Host β) (o : ObjectRef) (name : String) (v : Value) : Prop :=
  ∀ h', Spares o name h h' → h'.IsField o name →
    ∀ (read : Event β) (args : List Value), read.Asks h' .read (.object o) name args →
      (h'.happen read).1 = some (.ok v)

theorem readsBack_shown (hg : h.engine.Reachable) (ho : h.heap.Holds o) (name : String) :
    h.ReadsBack o name (h.shown o name) := by
  intro h' hspan hfield read args hread
  obtain ⟨hg', -, hshown⟩ := hspan.shown hg ho
  rw [happen_read hg' hfield hread, hshown]

theorem readsBack_of_write (hg : h.engine.Reachable) (ho : h.heap.Holds o)
    (hfield : h.IsField o name) (he : e.Asks h .write (.object o) name [v]) :
    (h.happen e).2.ReadsBack o name v := by
  obtain ⟨-, hset⟩ := happen_write hg hfield he
  have hshown : (h.happen e).2.shown o name = v := by
    rw [shown, hset, Heap.field?_setField_self ho]
    rfl
  rw [← hshown]
  exact readsBack_shown (reachable_happen hg e) (holds_happen hg ho e) name

/-- Writing a field gives the written value and changes no other field. Reads of the field give
that value until something writes the field, and nil if nothing did since the object was created
without it. -/
theorem fields_read_back (hg : h.engine.Reachable) (o : ObjectRef) (name : String) :
    (h.heap.Holds o → h.IsField o name →
      ∀ (v : Value) (write : Event β), write.Asks h .write (.object o) name [v] →
        (h.happen write).1 = some (.ok v) ∧
        (∀ other field, other.id ≠ o.id ∨ field ≠ name →
          (h.happen write).2.heap.field? other field = h.heap.field? other field) ∧
        (h.happen write).2.ReadsBack o name v) ∧
    ∀ cls fields, o = (h.heap.create cls fields).1 → (∀ p ∈ fields, p.1 ≠ name) →
      (h.happen (.create cls fields)).2.ReadsBack o name .nil := by
  constructor
  · intro ho hfield v write hwrite
    obtain ⟨hresult, hset⟩ := happen_write hg hfield hwrite
    -- the write asks for the property, is answered with the field and sets it
    refine ⟨hresult, fun other field hne => ?_, readsBack_of_write hg ho hfield hwrite⟩
    rw [hset]
    exact Heap.field?_setField_of_ne hne v
  · intro cls fields ho hname
    subst ho
    -- nothing was written, so the field shows what it shows without ever being set
    have hshown : (h.happen (.create cls fields)).2.shown (h.heap.create cls fields).1 name =
        .nil := congrArg (·.getD .nil) (Heap.field?_create_self hname h.heap cls)
    rw [← hshown]
    exact readsBack_shown (reachable_happen hg (.create cls fields))
      (Heap.holds_create h.heap cls fields) name

/-! ### A field at work -/

/-- A trait and a class with a field, a site that writes the field and one that reads it. -/
def sampleEngine : Engine Unit :=
  ((((Engine.build .default).perform (.define ⟨"T", none, [], true, []⟩ [])).perform
    (.define ⟨"C", none, [], false, ["count"]⟩ [])).perform (.openSite 0 .write "count")).perform
    (.openSite 1 .read "count")

/-- There is an object of the class. -/
def sampleHost : Host Unit := ⟨sampleEngine, (Heap.empty.create ⟨9⟩ []).2⟩

def sampleObject : ObjectRef := ⟨1, ⟨9⟩⟩

def sampleWrite : Event Unit := .callSite (.numbered 0) (.object sampleObject) [.int 5]

def sampleRead : Event Unit := .callSite (.numbered 1) (.object sampleObject) []

/-- The class gets the trait, so what sites have cached of it is stale. -/
def sampleTrait : Event Unit := .operate (.applyTrait ⟨9⟩ ⟨8⟩)

/-- The field was written and read, and then the class got the trait. -/
def sampleWritten : Host Unit :=
  (((sampleHost.happen sampleWrite).2.happen sampleRead).2.happen sampleTrait).2

/-- Another object was created, and then the class got the trait. -/
def sampleCreated : Host Unit := ((sampleHost.happen (.create ⟨9⟩ [])).2.happen sampleTrait).2

theorem reachable_sampleEngine : sampleEngine.Reachable := by
  have hfresh : (Engine.build .default : Engine Unit).Reachable := ⟨.default, .refl⟩
  exact (((hfresh.perform trivial).perform trivial).perform trivial).perform trivial

theorem fields_read_back_sampleHost :
    sampleHost.engine.Reachable ∧ sampleHost.heap.Holds sampleObject ∧
      sampleHost.IsField sampleObject "count" ∧ sampleWritten.IsField sampleObject "count" ∧
      (sampleHost.happen sampleWrite).1 = some (.ok (.int 5)) ∧
      (sampleWritten.happen sampleRead).1 = some (.ok (.int 5)) ∧
      (sampleCreated.happen (.call .read (.object ⟨2, ⟨9⟩⟩) "count" [])).1 =
        some (.ok .nil) := by
  have hholds : sampleHost.heap.Holds sampleObject := rfl
  have hfield : sampleHost.IsField sampleObject "count" := by
    unfold IsField
    decide
  have hfield' : sampleWritten.IsField sampleObject "count" := by
    unfold IsField
    decide
  have hfield'' : sampleCreated.IsField ⟨2, ⟨9⟩⟩ "count" := by
    unfold IsField
    decide
  have hread : ∀ h, h = sampleWritten ∨ h = (sampleHost.happen sampleWrite).2 →
      sampleRead.Asks h .read (.object sampleObject) "count" [] := by
    intro h hh
    obtain ⟨s, hs, haccess, hname⟩ : ∃ s, h.engine.sites.get? (.numbered 1) = some s ∧
        s.access = .read ∧ s.name = "count" := by
      rcases hh with rfl | rfl <;> exact ⟨_, rfl, rfl, rfl⟩
    exact .site hs haccess hname
  -- traits change no object, so they spare every field
  have htrait : ∀ h o, ¬ sampleTrait.Writes h o "count" := fun _ _ => Event.not_writes_operate _
  have hspan : Spares sampleObject "count" (sampleHost.happen sampleWrite).2 sampleWritten := by
    have hfirst : ¬ sampleRead.Writes (sampleHost.happen sampleWrite).2 sampleObject "count" :=
      (hread _ (.inr rfl)).not_writes
    exact .tail (.single ⟨sampleRead, hfirst, rfl⟩) ⟨sampleTrait, htrait _ _, rfl⟩
  have hg : sampleHost.engine.Reachable := reachable_sampleEngine
  obtain ⟨hwrites, -⟩ := fields_read_back hg sampleObject "count"
  obtain ⟨-, hcreates⟩ := fields_read_back hg ⟨2, ⟨9⟩⟩ "count"
  obtain ⟨hresult, -, hreads⟩ := hwrites hholds hfield (.int 5) sampleWrite (.site rfl rfl rfl)
  refine ⟨hg, hholds, hfield, hfield', hresult, ?_, ?_⟩
  · exact hreads sampleWritten hspan hfield' sampleRead [] (hread _ (.inl rfl))
  · have hspan' : Spares ⟨2, ⟨9⟩⟩ "count" (sampleHost.happen (.create ⟨9⟩ [])).2 sampleCreated :=
      .single ⟨sampleTrait, htrait _ _, rfl⟩
    exact hcreates ⟨9⟩ [] rfl nofun sampleCreated hspan' hfield'' _ [] .direct

end Host

end LateBinding
