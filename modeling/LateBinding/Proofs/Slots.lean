import LateBinding.Site
import Mathlib.Data.List.Perm.Basic
import Mathlib.Data.List.TakeDrop

/-!
# The slots of a call site

Sites keep their entries in the first slots and leave the others free. `pack` makes such slots;
each operation on slots takes packed ones to packed ones, and does to the entries what its name
says.
-/

namespace LateBinding.Site

variable {β : Type} {shape : Shape} {f : Entry β → Entry β} {e : Entry β} {es : List (Entry β)}
variable {free room : Nat}

/-- Slots with entries in front and free ones behind. -/
def pack (es : List (Entry β)) (free : Nat) : List (Option (Entry β)) :=
  es.map some ++ List.replicate free none

@[simp] theorem pack_cons : pack (e :: es) free = some e :: pack es free := rfl

@[simp] theorem pack_nil_succ : pack ([] : List (Entry β)) (free + 1) = none :: pack [] free := rfl

@[simp] theorem length_pack : (pack es free).length = es.length + free := by simp [pack]

/-- The entries in packed slots. -/
@[simp] theorem filterMap_pack : (pack es free).filterMap (fun slot => slot) = es := by
  induction es with
  | nil =>
    induction free with
    | zero => rfl
    | succ n ih => simpa using ih
  | cons e rest ih => simpa using ih

/-! ## Filling slots -/

@[simp] theorem fill_zero : fill 0 es = [] := rfl

theorem fill_nil_succ : fill (room + 1) ([] : List (Entry β)) = none :: fill room [] := by
  simp [fill, List.range_succ_eq_map, Function.comp_def]

theorem fill_cons_succ : fill (room + 1) (e :: es) = some e :: fill room es := by
  simp [fill, List.range_succ_eq_map]

@[simp] theorem length_fill : (fill room es).length = room := by simp [fill]

/-- Filling takes as many entries as there is room for. -/
theorem fill_eq_pack : fill room es = pack (es.take room) (room - es.length) := by
  induction room generalizing es with
  | zero => simp [pack]
  | succ n ih =>
    cases es with
    | nil => simpa [fill_nil_succ] using @ih []
    | cons e rest => simpa [fill_cons_succ] using ih

/-! ## Changing an entry -/

/-- Change the first entry for a shape. -/
def onEntry (shape : Shape) (f : Entry β → Entry β) : List (Entry β) → List (Entry β)
  | [] => []
  | e :: rest => if e.shape = shape then f e :: rest else e :: onEntry shape f rest

theorem updateEntry_pack : updateEntry shape f (pack es free) = pack (onEntry shape f es) free := by
  -- the entries come first, so the free slots are looked at only if no entry has the shape
  induction es with
  | nil =>
    induction free with
    | zero => rfl
    | succ n ih =>
      rw [pack_nil_succ, updateEntry, if_neg (by simp [holds]), ih]
      rfl
  | cons e rest ih =>
    by_cases he : e.shape = shape
    · simp [updateEntry, onEntry, holds, he]
    · simpa [updateEntry, onEntry, holds, he] using ih

/-- If no two entries have one shape, changing the first for a shape changes all for it. -/
theorem onEntry_eq_map (hdistinct : (es.map (·.shape)).Nodup) :
    onEntry shape f es = es.map fun e => if e.shape = shape then f e else e := by
  induction es with
  | nil => rfl
  | cons e rest ih =>
    obtain ⟨hfirst, hrest⟩ := List.nodup_cons.mp hdistinct
    unfold onEntry
    split
    · next he =>
      -- no other entry has the shape
      have hsame : rest.map (fun e => if e.shape = shape then f e else e) = rest := by
        refine (List.map_congr_left fun x hx => if_neg ?_).trans rest.map_id
        rintro hshape
        exact hfirst (List.mem_map.mpr ⟨x, hx, hshape.trans he.symm⟩)
      rw [List.map_cons, if_pos he, hsame]
    · next he => rw [List.map_cons, if_neg he, ih hrest]

/-! ## Moving an entry to the front -/

/-- Move the first entry for a shape to the front. -/
def toFront (shape : Shape) (es : List (Entry β)) : List (Entry β) :=
  match es.find? (·.shape = shape) with
  | none => es
  | some e => e :: es.eraseP (·.shape = shape)

theorem find?_pack : (pack es free).find? (holds shape) =
    (es.find? (·.shape = shape)).map some := by
  induction es with
  | nil =>
    induction free with
    | zero => rfl
    | succ n ih => simpa [holds] using ih
  | cons e rest ih =>
    by_cases he : e.shape = shape
    · simp [holds, he]
    · simpa [holds, he] using ih

theorem eraseP_pack (hmem : ∃ e ∈ es, e.shape = shape) :
    (pack es free).eraseP (holds shape) = pack (es.eraseP (·.shape = shape)) free := by
  induction es with
  | nil => simp at hmem
  | cons e rest ih =>
    by_cases he : e.shape = shape
    · simp [holds, he]
    · simpa [holds, he] using ih (by simpa [he] using hmem)

theorem moveToFront_pack : moveToFront shape (pack es free) = pack (toFront shape es) free := by
  unfold moveToFront toFront
  rw [find?_pack]
  cases hfind : es.find? (·.shape = shape) with
  | none => rfl
  | some e =>
    have he : e.shape = shape := by simpa using List.find?_some hfind
    simp [eraseP_pack ⟨e, List.mem_of_find?_eq_some hfind, he⟩]

theorem toFront_perm : (toFront shape es).Perm es := by
  unfold toFront
  split
  · exact .refl _
  · next e he =>
    -- along the entries, which move up one place until the one that is looked for is reached
    induction es with
    | nil => cases he
    | cons x rest ih =>
      rw [List.find?_cons] at he
      split at he
      · next hx =>
        cases he
        simp [hx]
      · next hx =>
        rw [List.eraseP_cons, hx]
        exact (List.Perm.swap x e _).trans ((ih he).cons x)

end LateBinding.Site
