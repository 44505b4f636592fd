import LateBinding.Proofs.Recall

/-!
# Where values come from

A call hands on the values that it was given and those that objects hold, and makes new ones
only of texts, numbers and lists. So as long as objects are created of declared classes, an
engine knows every value that a call can come upon (`Target.known_enter`).
-/

namespace LateBinding

variable {β : Type} {g : Engine β} {v receiver : Value} {args args' : List Value} {heap : Heap}

/-! ## Objects -/

namespace Heap

/-- The engine knows every value that is held by an object. -/
def KnownTo (h : Heap) (g : Engine β) : Prop := ∀ ref name v, h.field? ref name = some v → g.Known v

theorem knownTo_empty : Heap.empty.KnownTo g := by
  intro ref name v hv
  have hnone : Heap.empty.get? ref = none := by
    unfold Heap.get?
    split <;> rfl
  rw [field?, hnone] at hv
  cases hv

theorem get?_setField {ref : ObjectRef} {name : String} (other : ObjectRef) :
    (heap.setField ref name v).get? other = if ref.id = 0 ∨ ref.id ≠ other.id then heap.get? other
      else (heap.get? other).map fun o => { o with fields := o.fields.insert name v } := by
  unfold setField
  -- the reference 0 stands for no object, so neither a read nor a write of it finds any
  by_cases hzero : ref.id = 0
  · rw [if_pos hzero, if_pos (.inl hzero)]
  · rw [if_neg hzero]
    unfold get?
    by_cases hother : other.id = 0
    · simp only [hother, if_true, Option.map_none, ite_self]
    · simp only [hzero, hother, if_false, false_or, Array.getElem?_modify]
      -- objects are numbered from 1 and stored from 0
      have hsame : ref.id - 1 = other.id - 1 ↔ ¬ ref.id ≠ other.id := by omega
      by_cases hne : ref.id ≠ other.id
      · rw [if_neg (hsame.not.mpr (not_not.mpr hne)), if_pos hne]
      · rw [if_pos (hsame.mpr hne), if_neg hne]

/-- Fields hold what was written last. -/
theorem KnownTo.setField (h : heap.KnownTo g) (ref : ObjectRef) (name : String) (hv : g.Known v) :
    (heap.setField ref name v).KnownTo g := by
  intro other name' w hw
  -- another object or another field is as before, and the field itself is the value
  rw [field?, get?_setField] at hw
  split at hw
  · exact h other name' w hw
  · obtain ⟨o', ho', hfield⟩ := Option.bind_eq_some_iff.mp hw
    obtain ⟨o, ho, rfl⟩ := Option.map_eq_some_iff.mp ho'
    rw [Table.get?_insert] at hfield
    split at hfield
    · cases hfield
      exact hv
    · exact h other name' w (by rw [field?, ho]; exact hfield)

theorem get?_create (h : Heap) (c : ClassRef) (fields : List (String × Value)) (ref : ObjectRef) :
    (h.create c fields).2.get? ref = if ref.id = h.objects.size + 1
      then some ⟨c, fields.foldl (fun t p => t.insert p.1 p.2) .empty⟩ else h.get? ref := by
  unfold create get?
  by_cases hzero : ref.id = 0
  · simp only [hzero, if_true]
    rw [if_neg (by omega)]
  · simp only [hzero, if_false, Array.getElem?_push]
    have hlast : ref.id - 1 = h.objects.size ↔ ref.id = h.objects.size + 1 := by omega
    by_cases hnew : ref.id = h.objects.size + 1
    · rw [if_pos (hlast.mpr hnew), if_pos hnew]
    · rw [if_neg (hlast.not.mpr hnew), if_neg hnew]

/-- A table that was filled with known values holds no others. -/
theorem known_of_get?_foldl_insert {fields : List (String × Value)} {t : Table String Value}
    {name : String} (hfields : ∀ f ∈ fields, g.Known f.2)
    (ht : ∀ name v, t.get? name = some v → g.Known v)
    (hv : (fields.foldl (fun t p => t.insert p.1 p.2) t).get? name = some v) : g.Known v := by
  -- the insertions go on from any table that holds known values only
  induction fields generalizing t with
  | nil => exact ht name v hv
  | cons f fields ih =>
    rw [List.forall_mem_cons] at hfields
    refine ih hfields.2 (t := t.insert f.1 f.2) (fun name' w hw => ?_) hv
    rw [Table.get?_insert] at hw
    split at hw
    · cases hw
      exact hfields.1
    · exact ht name' w hw

theorem KnownTo.create (h : heap.KnownTo g) (c : ClassRef) {fields : List (String × Value)}
    (hfields : ∀ f ∈ fields, g.Known f.2) : (heap.create c fields).2.KnownTo g := by
  intro ref name v hv
  rw [field?, get?_create] at hv
  split at hv
  · refine known_of_get?_foldl_insert hfields (fun name v hnone => ?_) hv
    rw [Table.get?_empty] at hnone
    cases hnone
  · exact h ref name v hv

end Heap

/-! ## Calls -/

theorem ParamKind.known_convert (p : ParamKind) (hv : g.Known v) : g.Known (p.convert v) := by
  unfold convert widened?
  split
  · split
    · exact nofun
    · exact hv
  · exact hv

/-- What the code of a method receives are the arguments, converted or collected. -/
theorem Signature.known_arguments {s : Signature} (hargs : ∀ v ∈ args, g.Known v)
    (hok : s.arguments args = .ok args') : ∀ v ∈ args', g.Known v := by
  -- to convert an argument makes no new object
  have hzip : ∀ params : List ParamKind,
      ∀ v ∈ (params.zip args).map fun p => p.1.convert p.2, g.Known v := by
    intro params v hv
    obtain ⟨p, hp, rfl⟩ := List.mem_map.mp hv
    exact p.1.known_convert (hargs p.2 (List.of_mem_zip hp).2)
  intro v hv
  unfold arguments at hok
  dsimp only at hok
  -- a variadic signature packs what is left into a list, which is no object
  split at hok
  · split at hok
    · cases hok
    · cases hok
      rcases List.mem_append.mp hv with hv | hv
      · exact hzip _ v hv
      · rw [List.mem_singleton.mp hv]
        exact nofun
  · cases hok
    rcases List.mem_append.mp hv with hv | hv
    · exact hzip _ v hv
    · exact hargs v (List.mem_of_mem_drop hv)

/-- No builtin operation yields an object. -/
theorem Builtin.known_run {op : Builtin} (hok : op.run receiver args = .ok v) : g.Known v := by
  rintro o rfl
  cases op <;> unfold run at hok <;> dsimp only at hok
  case displayText => cases hok
  all_goals split at hok <;> cases hok

/-- The engine knows the values that a call comes to. -/
def Entered.KnownTo (g : Engine β) : Entered β → Prop
  | .finished result heap => (∀ v, result = .ok v → g.Known v) ∧ heap.KnownTo g
  | .running _ _ args written => (∀ v ∈ args, g.Known v) ∧ ∀ v, written = some v → g.Known v

theorem Request.known_enter {req : Request β} (hheap : heap.KnownTo g)
    (hreq : match req with
      | .run _ _ args => ∀ v ∈ args, g.Known v
      | .assign _ _ v | .writeField _ v => g.Known v
      | .readField _ => True) : (req.enter receiver heap).KnownTo g := by
  cases req with
  | run code name args =>
    -- a body only takes the values over, a built-in computes from them
    cases code with
    | builtin op => exact ⟨fun v hv => Builtin.known_run hv, hheap⟩
    | body b => exact ⟨hreq, nofun⟩
  | assign b name v =>
    refine ⟨fun w hw => ?_, fun w hw => ?_⟩
    · rw [List.mem_singleton.mp hw]
      exact hreq
    · cases hw
      exact hreq
  | readField name =>
    unfold enter
    dsimp only
    split
    · next o ho =>
      refine ⟨fun v hv => ?_, hheap⟩
      cases hv
      -- a field that was never written reads as nil
      cases hfield : heap.field? o name with
      | none => exact nofun
      | some v => exact hheap o name v hfield
    · exact ⟨nofun, hheap⟩
  | writeField name v =>
    unfold enter
    dsimp only
    split
    · next o ho =>
      refine ⟨fun w hw => ?_, hheap.setField o name hreq⟩
      cases hw
      exact hreq
    · exact ⟨nofun, hheap⟩

theorem Target.known_writtenValue (hargs : ∀ v ∈ args, g.Known v)
    (hok : writtenValue args = .ok v) : g.Known v := by
  unfold writtenValue at hok
  split at hok
  · cases hok
    exact hargs v (List.mem_singleton.mpr rfl)
  · cases hok

/-- A call of known values comes to known values. -/
theorem Target.known_enter (t : Target β) (hargs : ∀ v ∈ args, g.Known v) (hheap : heap.KnownTo g) :
    (t.enter receiver args heap).KnownTo g := by
  -- arguments that do not fit the target fail before any value is used
  have hfault : ∀ f : Fault, (Entered.finished (.error f) heap : Entered β).KnownTo g :=
    fun _ => ⟨nofun, hheap⟩
  unfold enter request
  cases t with
  | method m =>
    dsimp only
    cases hargs' : m.signature.arguments args with
    | error f => exact hfault f
    | ok args' => exact Request.known_enter hheap (Signature.known_arguments hargs hargs')
  | methodMissing => exact Request.known_enter hheap hargs
  | propertyMissing =>
    exact Request.known_enter hheap fun v hv => hargs v (List.mem_of_mem_take hv)
  | getter => exact Request.known_enter hheap nofun
  | readField => exact Request.known_enter hheap trivial
  | setter | writeField =>
    dsimp only
    cases hv : writtenValue args with
    | error f => exact hfault f
    | ok v => exact Request.known_enter hheap (known_writtenValue hargs hv)

end LateBinding
