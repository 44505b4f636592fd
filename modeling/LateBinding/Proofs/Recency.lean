import LateBinding.Proofs.Turns
import Mathlib.Data.List.Sort

/-!
# Recency

The slots of a call site are a cache that drops the least recently used shape. Recency is kept in
two ways: by the order of the slots, which calls at a frozen site do not touch, and by the number
of the call that used an entry last, by which the entry to drop is chosen.

* `Shape.latest`: the shapes of some calls in the order of their last calls.
* `Site.Ranked`: the entries, ordered by their last use, are for the shapes of a ranking, and until
  the site freezes that is the order of the slots. Every turn moves the shape of the call to the
  front of the ranking (`Ranked.turn`).
-/

namespace LateBinding

/-! ## Rankings -/

namespace Shape

variable {x y : Shape} {heard ranking : List Shape} {room : Nat}

/-- The different shapes of some calls, from the one called last. The latest call stands first. -/
def latest : List Shape → List Shape
  | [] => []
  | x :: before => x :: (latest before).filter (· ≠ x)

/-- The shape comes to the front of a ranking with limited room. -/
def touch (room : Nat) (x : Shape) (ranking : List Shape) : List Shape :=
  (x :: ranking.filter (· ≠ x)).take room

theorem mem_latest : y ∈ latest heard ↔ y ∈ heard := by
  induction heard with
  | nil => rfl
  | cons x before ih =>
    rw [latest, List.mem_cons, List.mem_cons, List.mem_filter, ih]
    by_cases hy : y = x
    · simp [hy]
    · simp [hy]

theorem nodup_latest : (latest heard).Nodup := by
  induction heard with
  | nil => exact List.nodup_nil
  | cons x before ih => exact List.nodup_cons.mpr ⟨by simp, ih.filter _⟩

/-- Of distinct shapes without one, the first few are among the first few and one more. -/
theorem take_filter_ne (h : ranking.Nodup) (n : Nat) :
    ((ranking.take (n + 1)).filter (· ≠ x)).take n = (ranking.filter (· ≠ x)).take n := by
  induction ranking generalizing n with
  | nil => rfl
  | cons y rest ih =>
    obtain ⟨hy, hrest⟩ := List.nodup_cons.mp h
    -- `x` is met and fills the one more, and it is not met again
    by_cases hyx : y = x
    · subst hyx
      have hsame : ∀ l : List Shape, l ⊆ rest → l.filter (· ≠ y) = l := fun l hl =>
        List.filter_eq_self.mpr fun z hz => by
          simpa using fun hzy : z = y => hy (hzy ▸ hl hz)
      simp only [List.take_succ_cons, List.filter_cons, ne_eq, not_true, decide_false,
        Bool.false_eq_true, if_false]
      rw [hsame rest (List.Subset.refl _), hsame _ (List.take_subset _ _), List.take_take,
        Nat.min_self]
    · cases n with
      | zero => rfl
      | succ n =>
        simp only [List.take_succ_cons, List.filter_cons, ne_eq, hyx, not_false_eq_true,
          decide_true, if_true]
        exact congrArg _ (ih hrest n)

/-- The shapes called last before a call determine those called last after it. -/
theorem take_latest_cons (hroom : 1 ≤ room) :
    (latest (x :: heard)).take room = touch room x ((latest heard).take room) := by
  obtain ⟨n, rfl⟩ := Nat.exists_eq_add_of_le' hroom
  rw [latest, touch, List.take_succ_cons, List.take_succ_cons, take_filter_ne nodup_latest]

/-- A shape that is ranked just moves. -/
theorem touch_of_mem (h : ranking.Nodup) (hx : x ∈ ranking) (hroom : ranking.length ≤ room) :
    touch room x ranking = x :: ranking.filter (· ≠ x) := by
  refine List.take_of_length_le (Nat.le_trans ?_ hroom)
  have herase : ranking.filter (· ≠ x) = ranking.erase x := by
    rw [h.erase_eq_filter]
    exact List.filter_congr fun y _ => by by_cases hy : y = x <;> simp [hy]
  have hpos := List.length_pos_of_mem hx
  rw [List.length_cons, herase, List.length_erase_of_mem hx]
  omega

/-- A shape that is not ranked comes in front, and the last one goes if there is no room. -/
theorem touch_of_not_mem (hx : x ∉ ranking) (hlength : ranking.length ≤ room) (hroom : 1 ≤ room) :
    touch room x ranking = x :: if room ≤ ranking.length then ranking.dropLast else ranking := by
  have hsame : ranking.filter (· ≠ x) = ranking :=
    List.filter_eq_self.mpr fun y hy => by simpa using fun hyx : y = x => hx (hyx ▸ hy)
  obtain ⟨n, rfl⟩ := Nat.exists_eq_add_of_le' hroom
  rw [touch, hsame, List.take_succ_cons]
  split
  · have hn : ranking.length - 1 = n := by omega
    rw [List.dropLast_eq_take, hn]
  · rw [List.take_of_length_le (by omega)]

end Shape

namespace Site

variable {β : Type} {s s' : Site β} {shape x : Shape} {found : Resolution β} {e : Entry β}
variable {p : Policy} {q : Resolver β} {es entries : List (Entry β)} {n first : Nat}
variable {ranking : List Shape}

/-! ## Entries by their last use -/

/-- The entries are ordered by the call that used them last, the latest first. -/
def ByUse (es : List (Entry β)) : Prop := es.Pairwise fun e e' => e'.lastUsed < e.lastUsed

theorem ByUse.sublist (h : ByUse es) (hsub : entries.Sublist es) : ByUse entries :=
  List.Pairwise.sublist hsub h

/-- The position that is chosen is that of an entry that was not used after any other. -/
theorem oldest_le (hne : es ≠ []) : ∃ o, es[oldest es]? = some o ∧
    ∀ e ∈ es, o.lastUsed ≤ e.lastUsed := by
  -- the oldest of the rest is compared with the first, and the first goes if they are equal
  induction es with
  | nil => exact absurd rfl hne
  | cons e rest ih =>
    cases rest with
    | nil => exact ⟨e, rfl, by simp⟩
    | cons e' rest =>
      obtain ⟨o, ho, hmin⟩ := ih (List.cons_ne_nil _ _)
      simp only [oldest, ho]
      split
      · next hle =>
        refine ⟨e, rfl, fun x hx => ?_⟩
        rcases List.mem_cons.mp hx with rfl | hx
        · exact Nat.le_refl _
        · exact Nat.le_trans hle (hmin x hx)
      · next hlt =>
        refine ⟨o, by simpa using ho, fun x hx => ?_⟩
        rcases List.mem_cons.mp hx with rfl | hx
        · omega
        · exact hmin x hx

/-- The entry to drop is the last one in the order of use. -/
theorem dropLast_perm_eraseIdx (hperm : es.Perm entries) (hsorted : ByUse es)
    (hne : entries ≠ []) : es.dropLast.Perm (entries.eraseIdx (oldest entries)) := by
  obtain ⟨o, ho, hmin⟩ := oldest_le hne
  have hes : es ≠ [] := fun hnil => hne (List.nil_perm.mp (hnil ▸ hperm))
  have hsplit : es.dropLast ++ [es.getLast hes] = es := List.dropLast_append_getLast hes
  -- the last one was used before all others, so none but itself can have been used before it
  have hlast : o = es.getLast hes := by
    have hmem : o ∈ es := hperm.mem_iff.mpr (List.mem_of_getElem? ho)
    rw [← hsplit] at hmem hsorted
    rcases List.mem_append.mp hmem with hmem | hmem
    · have hlt := (List.pairwise_append.mp hsorted).2.2 o hmem _ (List.mem_singleton_self _)
      have hle := hmin _ (hperm.mem_iff.mp (List.getLast_mem hes))
      omega
    · exact List.mem_singleton.mp hmem
  obtain ⟨hlt, hget⟩ := List.getElem?_eq_some_iff.mp ho
  -- without the last one in the order of use, and without the oldest: what is left is the same
  have hcons : (es.getLast hes :: entries.eraseIdx (oldest entries)).Perm entries := by
    rw [← hlast, ← hget]
    exact List.getElem_cons_eraseIdx_perm hlt
  have hrotate : (es.getLast hes :: es.dropLast).Perm es := by
    conv_rhs => rw [← hsplit]
    exact (List.perm_append_singleton _ _).symm
  exact ((hrotate.trans hperm).trans hcons.symm).cons_inv

/-- Entries that are ordered by use stay in order when the one to drop is dropped. -/
theorem dropLast_eq_eraseIdx (hsorted : ByUse es) (hne : es ≠ []) :
    es.dropLast = es.eraseIdx (oldest es) := by
  refine List.Perm.eq_of_pairwise ?_ (hsorted.sublist (List.dropLast_sublist _))
    (hsorted.sublist (List.eraseIdx_sublist _ _)) (dropLast_perm_eraseIdx (.refl _) hsorted hne)
  intro a b _ _ hab hba
  omega

/-- If no two entries have one shape, each is the one that is found for its shape. -/
theorem find?_shape (hdistinct : (es.map (·.shape)).Nodup) (he : e ∈ es) :
    es.find? (·.shape = e.shape) = some e := by
  cases hfind : es.find? (·.shape = e.shape) with
  | none => simpa using List.find?_eq_none.mp hfind e he
  | some e' =>
    have hshape : e'.shape = e.shape := by simpa using List.find?_some hfind
    rw [List.inj_on_of_nodup_map hdistinct (List.mem_of_find?_eq_some hfind) he hshape]

/-- If no two entries have one shape, removing the first for a shape removes all for it. -/
theorem eraseP_eq_filter (hdistinct : (es.map (·.shape)).Nodup) :
    es.eraseP (·.shape = x) = es.filter (·.shape ≠ x) := by
  induction es with
  | nil => rfl
  | cons e rest ih =>
    obtain ⟨hfirst, hrest⟩ := List.nodup_cons.mp hdistinct
    by_cases he : e.shape = x
    -- the first for the shape is removed, and the rest has none for it
    · have hsame : rest.filter (·.shape ≠ x) = rest :=
        List.filter_eq_self.mpr fun e' he' => by
          simpa using fun hshape : e'.shape = x =>
            hfirst (List.mem_map.mpr ⟨e', he', hshape.trans he.symm⟩)
      rw [List.eraseP_cons_of_pos (by simpa using he), List.filter_cons_of_neg (by simpa using he),
        hsame]
    · rw [List.eraseP_cons_of_neg (by simpa using he), List.filter_cons_of_pos (by simpa using he),
        ih hrest]

@[simp] theorem shape_hitBy : (Entry.hitBy x n e).shape = e.shape := by
  unfold Entry.hitBy
  split <;> rfl

/-- A hit leaves the entries for other shapes alone. -/
theorem filter_map_hitBy : (es.map (Entry.hitBy x n)).filter (·.shape ≠ x) =
    es.filter (·.shape ≠ x) := by
  induction es with
  | nil => rfl
  | cons e rest ih =>
    by_cases he : e.shape = x
    · simpa [he] using ih
    · have hsame : Entry.hitBy x n e = e := if_neg he
      simpa [he, hsame] using ih

/-- The entry that is hit comes to the front, and the others stay in order. -/
theorem toFront_hitBy (hdistinct : (es.map (·.shape)).Nodup) (he : e ∈ es) :
    toFront e.shape (es.map (Entry.hitBy e.shape n)) =
      e.hit n :: es.filter (·.shape ≠ e.shape) := by
  have hshapes : (es.map (Entry.hitBy e.shape n)).map (·.shape) = es.map (·.shape) := by
    simp [Function.comp_def]
  -- it is the one entry for its shape, before and after the hit is noted
  have hfind : (es.map (Entry.hitBy e.shape n)).find? (·.shape = e.shape) = some (e.hit n) := by
    have hhit : Entry.hitBy e.shape n e = e.hit n := if_pos rfl
    rw [List.find?_map]
    simp only [Function.comp_def, shape_hitBy]
    rw [find?_shape hdistinct he, Option.map_some, hhit]
  rw [toFront, hfind]
  dsimp only
  rw [eraseP_eq_filter (hshapes ▸ hdistinct), filter_map_hitBy]

/-! ## Ranked sites -/

/-- The entries of a site, ordered by their last use, are for the shapes of a ranking. As long as
the site did not freeze, counting from some moment, that is the order of the slots. -/
structure Ranked (s : Site β) (first : Nat) (ranking : List Shape) : Prop where
  order : ∃ es : List (Entry β), es.Perm s.entries ∧ es.map (·.shape) = ranking ∧ ByUse es ∧
    (s.freezes = first → es = s.entries)
  used : ∀ e ∈ s.entries, e.lastUsed ≤ s.calls
  freezes : first ≤ s.freezes
  frozen : s.phase = .frozen → first < s.freezes

theorem Ranked.perm (h : s.Ranked first ranking) : s.shapes.Perm ranking := by
  obtain ⟨es, hperm, rfl, -⟩ := h.order
  exact (hperm.map _).symm

theorem Ranked.eq_of_freezes (h : s.Ranked first ranking) (hfreezes : s.freezes = first) :
    s.shapes = ranking := by
  obtain ⟨es, -, rfl, -, hinplace⟩ := h.order
  rw [hinplace hfreezes, shapes]

/-- An entry that this call used or made comes before all others. -/
theorem ranked_of_front {rest : List (Entry β)} (hperm : (e :: rest).Perm s.entries)
    (hrest : ByUse rest) (hbefore : ∀ e' ∈ rest, e'.lastUsed < s.calls)
    (hlast : e.lastUsed = s.calls) (hinplace : s.freezes = first → e :: rest = s.entries)
    (hfreezes : first ≤ s.freezes) (hfrozen : s.phase = .frozen → first < s.freezes) :
    s.Ranked first (e.shape :: rest.map (·.shape)) where
  order := by
    refine ⟨e :: rest, hperm, rfl, List.pairwise_cons.mpr ⟨fun e' he' => ?_, hrest⟩, hinplace⟩
    rw [hlast]
    exact hbefore e' he'
  used e' he' := by
    rcases List.mem_cons.mp (hperm.mem_iff.mpr he') with rfl | he'
    · exact Nat.le_of_eq hlast
    · exact Nat.le_of_lt (hbefore e' he')
  freezes := hfreezes
  frozen := hfrozen

theorem Ranked.frosted (h : s.Ranked first ranking) : s.frosted.Ranked first ranking where
  order := by
    obtain ⟨es, hperm, hranking, hsorted, -⟩ := h.order
    refine ⟨es, hperm, hranking, hsorted, fun hfreezes => ?_⟩
    have hle := h.freezes
    have hmore : s.freezes + 1 = first := hfreezes
    omega
  used := h.used
  freezes := Nat.le_succ_of_le h.freezes
  frozen _ := Nat.lt_succ_of_le h.freezes

theorem Ranked.heed (h : s.Ranked first ranking) {v : Verdict}
    (hphase : (s.heed v).phase ≠ .megamorphic) : (s.heed v).Ranked first ranking := by
  cases v with
  | keep => exact h
  | freeze => exact h.frosted
  | giveUp => exact absurd rfl hphase

theorem Ranked.refused (h : s.Ranked first ranking) : s.refused.Ranked first ranking where
  order := h.order
  used e he := Nat.le_succ_of_le (h.used e he)
  freezes := h.freezes
  frozen hphase := by
    have hne : s.refused.phase ≠ .frozen := by
      unfold Site.refused
      dsimp only
      split
      · nofun
      · assumption
    exact absurd hphase hne

/-- A hit brings the shape to the front of the ranking, whether or not the entry moves. -/
theorem Ranked.hit (hs : s.Valid) (h : s.Ranked first ranking) (hmem : x ∈ s.shapes)
    (hcalls : s'.calls = s.calls + 1) (hfreezes : s'.freezes = s.freezes)
    (hphase : s'.phase = s.phase)
    (hentries : s'.entries = s.entries.map (Entry.hitBy x (s.calls + 1)) ∧ s.phase = .frozen ∨
      s'.entries = toFront x (s.entries.map (Entry.hitBy x (s.calls + 1)))) :
    s'.Ranked first (Shape.touch s.capacity x ranking) := by
  have hperm := h.perm
  have hnodup : ranking.Nodup := hperm.nodup_iff.mp hs.condition.distinct
  have hlength : ranking.length ≤ s.capacity := by
    rw [← hperm.length_eq, length_shapes]
    exact hs.length_le
  -- a shape of the ranking only moves in it, and none has to go
  rw [Shape.touch_of_mem hnodup (hperm.mem_iff.mp hmem) hlength]
  obtain ⟨es, hes, rfl, hsorted, hinplace⟩ := h.order
  obtain ⟨e, he, rfl⟩ := List.mem_map.mp (hperm.mem_iff.mp hmem)
  have hfront := toFront_hitBy (n := s.calls + 1) hnodup he
  have hmap : (es.map (·.shape)).filter (· ≠ e.shape) =
      (es.filter (·.shape ≠ e.shape)).map (·.shape) := by
    rw [List.filter_map]
    rfl
  -- in whatever slot it stands, the hit entry and the others are the entries after the hit
  have hmoved : (e.hit (s.calls + 1) :: es.filter (·.shape ≠ e.shape)).Perm
      (s.entries.map (Entry.hitBy e.shape (s.calls + 1))) := by
    rw [← hfront]
    exact toFront_perm.trans (hes.map _)
  rw [hmap]
  refine ranked_of_front (e := e.hit (s.calls + 1)) ?_ (hsorted.sublist List.filter_sublist)
    (fun e' he' => ?_) hcalls.symm (fun hfirst => ?_) (hfreezes ▸ h.freezes) ?_
  · rcases hentries with ⟨hentries, -⟩ | hentries
    · rwa [hentries]
    · rw [hentries]
      exact hmoved.trans toFront_perm.symm
  · rw [hcalls]
    exact Nat.lt_succ_of_le (h.used e' (hes.mem_iff.mp (List.mem_filter.mp he').1))
  -- a frozen site leaves its entries in place, but then it has frozen once since the start
  · rcases hentries with ⟨-, hfrozen⟩ | hentries
    · have hlt := h.frozen hfrozen
      omega
    · rw [hentries, ← hinplace (hfreezes ▸ hfirst), hfront]
  · rw [hphase, hfreezes]
    exact h.frozen

/-- A new shape comes to the front of the ranking, and the last one goes if there is no room. -/
theorem Ranked.learnt (hs : s.Valid) (h : s.Ranked first ranking) (hnew : x ∉ s.shapes) :
    (s.learnt x found).Ranked first (Shape.touch s.capacity x ranking) := by
  have hperm := h.perm
  have hlength : ranking.length = s.entries.length := by rw [← hperm.length_eq, length_shapes]
  rw [Shape.touch_of_not_mem (fun hx => hnew (hperm.mem_iff.mpr hx)) (hlength ▸ hs.length_le)
    hs.room, hlength]
  obtain ⟨es, hes, rfl, hsorted, hinplace⟩ := h.order
  -- a full site drops the one that was used first, one with room drops none
  -- the entries that stay, in order of use
  obtain ⟨kept, hkept, hsub, hspared, hstay⟩ : ∃ kept : List (Entry β),
      (if s.capacity ≤ s.entries.length then (es.map (·.shape)).dropLast
        else es.map (·.shape)) = kept.map (·.shape) ∧
      kept.Sublist es ∧ kept.Perm s.spared ∧ (s.freezes = first → kept = s.spared) := by
    by_cases hfull : s.capacity ≤ s.entries.length
    · have hne : s.entries ≠ [] :=
        List.ne_nil_of_length_pos (Nat.lt_of_lt_of_le hs.room hfull)
      simp only [spared, if_pos hfull]
      refine ⟨es.dropLast, List.map_dropLast.symm, List.dropLast_sublist _,
        dropLast_perm_eraseIdx hes hsorted hne, fun hfirst => ?_⟩
      rw [← hinplace hfirst] at hne ⊢
      exact dropLast_eq_eraseIdx hsorted hne
    · simp only [spared, if_neg hfull]
      exact ⟨es, rfl, .refl _, hes, hinplace⟩
  rw [hkept]
  refine ranked_of_front (e := ⟨x, found.target, found.guard, 0, s.calls + 1⟩) ?_
    (hsorted.sublist hsub) (fun e' he' => ?_) rfl (fun hfirst => ?_) h.freezes ?_
  · rw [entries_learnt hs]
    exact hspared.cons _
  · exact Nat.lt_succ_of_le (h.used e' (hes.mem_iff.mp (hsub.subset he')))
  · rw [entries_learnt hs, hstay hfirst]
  · intro hphase
    simp only [Site.learnt] at hphase
    split at hphase <;> cases hphase

/-- A call that is answered brings its shape to the front of the ranking. -/
theorem Ranked.turn (hs : s.Valid) (h : s.Ranked first ranking)
    {out : Except DispatchError (Target β) × Site β × Resolver β} (hturn : s.Turn p q x out)
    (hphase : out.2.1.phase ≠ .megamorphic) :
    out.2.1.Ranked first (if out.1.isOk then Shape.touch s.capacity x ranking else ranking) := by
  -- the four kinds of turns; a refused one changes neither the ranking nor the entries
  cases hturn with
  | held hfrozen hmem =>
    have hhit : (s.count.recordHit x).Ranked first (Shape.touch s.capacity x ranking) :=
      h.hit hs hmem rfl rfl rfl (.inl ⟨entries_recordHit hs.count, hfrozen⟩)
    exact hhit
  | promoted hadaptive hmem =>
    have hhit : (s.count.promote x).Ranked first (Shape.touch s.capacity x ranking) :=
      h.hit hs hmem rfl rfl rfl (.inr (entries_promote hs.count))
    show Ranked (if _ then _ else _) _ _
    split
    · exact hhit.frosted
    · exact hhit
  | refused hnew hq => exact h.refused
  | learned hnew hq => exact (h.learnt hs hnew).heed hphase

end Site

end LateBinding
