import LateBinding.Proofs.Invalidation
import LateBinding.Proofs.Overrides

/-!
# Properties that are fields

A property of a receiver is a field if a class on the receiver's chain declares it and nothing on
the lookup path takes precedence: no accessor, and no method that stands for reading or writing the
property. Then every access resolves to the field, whatever is written to it
(`Registry.FieldOnly.lookup`).

What is remembered does not get in the way. Under a current guard, the receiver sees what it saw
when the guard was issued (`Engine.seesAlike_perform`), also after a trait was applied, which makes
other findings stale. So of a property that is a field, only that is recalled
(`Engine.Reachable.recallsFields`).
-/

namespace LateBinding

/-! ## Traits -/

namespace Hierarchy

variable {h h' : Hierarchy} {c t x y : ClassRef}

/-- A trait brings no fields of the classes that there are. -/
theorem declaresField_withInterface (hok : h.withInterface c t = .ok h') (name : String) :
    h'.declaresField x name = h.declaresField x name := by
  obtain ⟨-, ⟨-, rfl⟩ | ⟨-, rfl⟩⟩ := withInterface_eq_ok hok
  · rfl
  · rw [declaresField, addInterface_eq, get?_relinearize, get?_listInterface, declaresField]
    cases h.get? x with
    | none => rfl
    | some info =>
      simp only [Option.map_some]
      split <;> rfl

end Hierarchy

/-! ## Looking a field up -/

/-- A fixed method of the signature stands for reading or writing the property. -/
def Signature.StandsFor (s : Signature) (property : String) : Prop :=
  s.variadic = false ∧ s.name ∈ ["get", "is", "set"].map (· ++ Text.capitalize property)

instance (s : Signature) (property : String) : Decidable (s.StandsFor property) :=
  inferInstanceAs (Decidable (_ ∧ _))

namespace MemberTable

variable {β : Type}

/-- The table has no accessor for a property, and no method in its place. -/
structure LeavesToField (t : MemberTable β) (name : String) : Prop where
  accessor : t.property? name = none
  methods : ∀ m, t.Holds m → ¬ m.signature.StandsFor name

theorem holds_iff_mem_keys {t : MemberTable β} {m : Method β} :
    t.Holds m ↔ ∃ k ∈ t.overloads.keys, m ∈ t.bucket k := by
  refine ⟨fun ⟨k, hm⟩ => ⟨k, ?_, hm⟩, fun ⟨k, _, hm⟩ => ⟨k, hm⟩⟩
  by_contra hk
  rw [bucket, Table.get?_eq_none_iff.mpr hk] at hm
  exact List.not_mem_nil hm

theorem leavesToField_iff {t : MemberTable β} {name : String} : t.LeavesToField name ↔
    t.property? name = none ∧
      ∀ k ∈ t.overloads.keys, ∀ m ∈ t.bucket k, ¬ m.signature.StandsFor name := by
  constructor
  · intro h
    exact ⟨h.accessor, fun k _ m hm => h.methods m ⟨k, hm⟩⟩
  · rintro ⟨haccessor, hmethods⟩
    refine ⟨haccessor, fun m hm => ?_⟩
    obtain ⟨k, hk, hmem⟩ := holds_iff_mem_keys.mp hm
    exact hmethods k hk m hmem

instance (t : MemberTable β) (name : String) : Decidable (t.LeavesToField name) :=
  decidable_of_iff _ leavesToField_iff.symm

end MemberTable

/-- What an access to a field resolves to. -/
def Access.fieldTarget? {β : Type} (access : Access) (name : String) : Option (Target β) :=
  match access with
  | .method => none
  | .read => some (.readField name)
  | .write => some (.writeField name)

namespace Registry

variable {β : Type} {r r' : Registry β} {receiver : Receiver} {name called : String}
variable {args : List ClassRef} {t : MemberTable β}

/-- For the receiver, the property is a field that a class on its chain declares. -/
structure FieldOnly (r : Registry β) (receiver : Receiver) (name : String) : Prop where
  declared : ∃ c ∈ r.hierarchy.chain receiver.cls, r.hierarchy.declaresField c name
  plain : ∀ t ∈ r.path receiver, t.LeavesToField name

instance (r : Registry β) (receiver : Receiver) (name : String) :
    Decidable (r.FieldOnly receiver name) :=
  decidable_of_iff ((∃ c ∈ r.hierarchy.chain receiver.cls, r.hierarchy.declaresField c name) ∧
      ∀ t ∈ r.path receiver, t.LeavesToField name)
    ⟨fun h => ⟨h.1, h.2⟩, fun h => ⟨h.declared, h.plain⟩⟩

/-- Without fixed methods of a name, none is found. -/
theorem findFixed_eq_none (hr : r.Sound) (hno : ∀ t ∈ r.path receiver, ∀ m, t.Holds m →
      m.signature.variadic = false → m.signature.name ≠ called) :
    Lookup.findFixed r.hierarchy (r.path receiver) receiver.cls called args = .ok none := by
  apply Lookup.firstOffer_eq_none
  intro t ht
  apply (Lookup.fixedIn_eq_none_iff (path_wellKept hr ht) hr.hierarchy).mpr
  intro m hm
  obtain ⟨hheld, hname, haccepts⟩ := hm
  exact hno t ht m hheld (Signature.accepts_iff.mp haccepts).1 hname

namespace FieldOnly

variable (h : r.FieldOnly receiver name)
include h

theorem declares : r.hierarchy.Declares receiver.cls := by
  obtain ⟨c, hc, -⟩ := h.declared
  exact Hierarchy.declares_of_mem_chain hc

theorem hasField : Lookup.hasField r.hierarchy receiver.cls name = true := by
  obtain ⟨c, hc, hfield⟩ := h.declared
  exact List.any_eq_true.mpr ⟨c, hc, hfield⟩

theorem no_accessor : (r.path receiver).findSome? (·.property? name) = none := by
  apply List.findSome?_eq_none_iff.mpr
  intro t ht
  exact (h.plain t ht).accessor

/-- None of the methods that would stand for reading or writing the property is found. -/
theorem no_method (hr : r.Sound) {lead : String} (hlead : lead ∈ ["get", "is", "set"]) :
    Lookup.findFixed r.hierarchy (r.path receiver) receiver.cls (lead ++ Text.capitalize name)
      args = .ok none := by
  apply findFixed_eq_none hr
  intro t ht m hm hfixed hname
  exact (h.plain t ht).methods m hm ⟨hfixed, hname ▸ List.mem_map_of_mem hlead⟩

theorem lookup (hr : r.Sound) {access : Access} {target : Target β}
    (htarget : access.fieldTarget? name = some target) (args : List ClassRef) :
    r.lookup access receiver name args = .ok target := by
  -- none of the three accessor names a property may go by is a method of the receiver
  have hget : Lookup.findFixed r.hierarchy (r.path receiver) receiver.cls
      ("get" ++ Text.capitalize name) [] = .ok none :=
    h.no_method hr (by simp)
  have his : Lookup.findFixed r.hierarchy (r.path receiver) receiver.cls
      ("is" ++ Text.capitalize name) [] = .ok none :=
    h.no_method hr (by simp)
  have hset : Lookup.findFixed r.hierarchy (r.path receiver) receiver.cls
      ("set" ++ Text.capitalize name) [args.headD .null] = .ok none :=
    h.no_method hr (by simp)
  obtain ⟨info, hinfo⟩ := h.declares.find
  -- a method call has no field target; for the other two the search falls through to the field
  cases access with
  | method => cases htarget
  | read =>
    cases htarget
    simp only [Registry.lookup, hinfo, Lookup.find, Lookup.findRead, h.no_accessor,
      Lookup.findReader, hget, his, h.hasField, if_true]
  | write =>
    cases htarget
    simp only [Registry.lookup, hinfo, Lookup.find, Lookup.findWrite, h.no_accessor,
      Lookup.findWriter, hset, h.hasField, if_true]

end FieldOnly

/-- Only writing a property can resolve to writing a field, the one of that name. -/
theorem written_of_lookup {access : Access} {field : String}
    (hok : r.lookup access receiver name args = .ok (.writeField field)) :
    access = .write ∧ name = field := by
  -- only the last branch of a write gives this target, so all others contradict `hok`
  unfold lookup at hok
  split at hok
  · cases hok
  · cases access with
    | method =>
      simp only [Lookup.find, Lookup.findMethod] at hok
      repeat' split at hok
      all_goals cases hok
    | read =>
      simp only [Lookup.find, Lookup.findRead] at hok
      repeat' split at hok
      all_goals cases hok
    | write =>
      simp only [Lookup.find, Lookup.findWrite] at hok
      repeat' split at hok
      all_goals cases hok
      exact ⟨rfl, rfl⟩

/-! ## What a receiver sees -/

/-- For the receiver, the same classes have the same fields and members. -/
structure SeesAlike (r' r : Registry β) (receiver : Receiver) : Prop where
  chain : ∀ c, c ∈ r'.hierarchy.chain receiver.cls ↔ c ∈ r.hierarchy.chain receiver.cls
  fields : ∀ c ∈ r.hierarchy.chain receiver.cls, ∀ name,
    r'.hierarchy.declaresField c name = r.hierarchy.declaresField c name
  members : ∀ c ∈ r.hierarchy.chain receiver.cls, r'.members c = r.members c
  own : ∀ o, receiver = .own o → r'.ownMembers? o = r.ownMembers? o

theorem mem_path : t ∈ r.path receiver ↔
    (∃ o, receiver = .own o ∧ r.ownMembers? o = some t) ∨
      ∃ c ∈ r.hierarchy.chain receiver.cls, r.members c = t := by
  have hclass : t ∈ r.classPath receiver.cls ↔
      ∃ c ∈ r.hierarchy.chain receiver.cls, r.members c = t := List.mem_map
  cases receiver with
  | plain c => simpa [path] using hclass
  | own o =>
    rw [← hclass]
    simp [path]

/-- Whether a property is a field depends on what the receiver sees. -/
theorem FieldOnly.of_seesAlike (h : r'.FieldOnly receiver name) (hs : r'.SeesAlike r receiver) :
    r.FieldOnly receiver name where
  declared := by
    obtain ⟨c, hc, hfield⟩ := h.declared
    have hc' := (hs.chain c).mp hc
    exact ⟨c, hc', hs.fields c hc' name ▸ hfield⟩
  plain t ht := by
    apply h.plain t
    rcases mem_path.mp ht with ⟨o, ho, hown⟩ | ⟨c, hc, hmembers⟩
    · exact mem_path.mpr (.inl ⟨o, ho, (hs.own o ho).trans hown⟩)
    · exact mem_path.mpr (.inr ⟨c, (hs.chain c).mpr hc, (hs.members c hc).trans hmembers⟩)

theorem Keeps.seesAlike (h : r'.Keeps r) (hreceiver : r.hierarchy.Declares receiver.cls) :
    r'.SeesAlike r receiver := by
  have hgrows := h.hierarchy
  have hdeclares : ∀ c ∈ r.hierarchy.chain receiver.cls, r.hierarchy.Declares c :=
    fun c hc => hgrows.wellFormed.declares_mem_chain hc
  refine ⟨fun c => by rw [hgrows.chain hreceiver], fun c hc name => ?_, fun c hc => ?_,
    fun o _ => h.own o⟩
  · exact hgrows.declaresField (hdeclares c hc) name
  · exact h.members c (hdeclares c hc)

section Guarded

variable {guard : Guard} (hfor : guard.IsFor receiver) (hissued : guard.Issued r)
variable (hcur : guard.isCurrent r')
include hfor hissued hcur

theorem Vouches.seesAlike (h : r'.Vouches r) : r'.SeesAlike r receiver := by
  obtain ⟨hcls, hobj⟩ := Guard.isCurrent_iff.mp hcur
  refine ⟨fun c => by rw [h.hierarchy], fun c _ name => by rw [h.hierarchy], fun c hc => ?_,
    fun o ho => ?_⟩
  · exact h.members guard.cls guard.version hissued.1 hcls c (hfor.1 ▸ hc)
  · subst ho
    obtain ⟨⟨_, v⟩, hown, rfl⟩ := Option.map_eq_some_iff.mp hfor.2
    exact h.own _ v (hissued.2 _ v hown) (hobj _ v hown)

/-- A trait changes what the heirs of its class see, and these are stamped anew. -/
theorem seesAlike_applyTrait (hr : r.Sound) {c iface : ClassRef}
    (hok : r.applyTrait c iface = .ok r') : r'.SeesAlike r receiver := by
  -- the guard is current afterwards, so the receiver's class was not stamped anew: no heir
  have hspared : c ∉ r.hierarchy.chain receiver.cls := by
    have h := (Guard.isCurrent_restamped_iff (restamped_applyTrait hr hok) hissued).mp hcur
    exact hfor.1 ▸ h.2
  unfold applyTrait at hok
  split at hok
  · cases hok
  · next h hh =>
    obtain ⟨-, rfl⟩ := invalidate_eq_ok hok
    have hhierarchy := (extends_bumpAll (r := ({ r with hierarchy := h } : Registry β))
      (h.descendants c)).hierarchy
    -- then its chain is the old one, and fields, members and instance cells were never touched
    refine ⟨fun x => ?_, fun x _ name => ?_, fun x _ => ?_, fun o _ => ?_⟩
    · rw [hhierarchy]
      exact (hr.hierarchy.mem_chain_withInterface hh).trans (or_iff_left fun h => hspared h.1)
    · rw [hhierarchy]
      exact Hierarchy.declaresField_withInterface hh name
    · exact members_restamp (r := ({ r with hierarchy := h } : Registry β))
    · exact congrArg (Option.map (·.members))
        (cell?_restamp_ofObject (r := ({ r with hierarchy := h } : Registry β)) o)

end Guarded

end Registry

/-! ## What is recalled of fields -/

namespace Engine

variable {β : Type} {g : Engine β} {op : Operation β} {f : Finding β}

/-- Under a guard that is current after an operation, the receiver sees what it saw before. -/
theorem seesAlike_perform (hg : g.Reachable) (hf : f.Founded g.registry)
    (hcur : f.found.guard.isCurrent (g.perform op).registry) :
    (g.perform op).registry.SeesAlike g.registry f.shape.receiver := by
  have hsound := hg.sound
  -- declarations and traits change the hierarchy; every other operation is vouched for as a whole
  by_cases hdefine : ∃ d methods, op = .define d methods
  · obtain ⟨d, methods, rfl⟩ := hdefine
    have hquiet : Quiet g (.define d methods) := trivial
    exact (keeps_perform hsound hquiet).seesAlike hf.receiver
  · by_cases htrait : ∃ c iface, op = .applyTrait c iface
    · obtain ⟨c, iface, rfl⟩ := htrait
      rcases registry_perform g (.applyTrait c iface) with ⟨_, hop, hok⟩ | ⟨cs, hcs⟩
      · cases hop
        exact Registry.seesAlike_applyTrait hf.isFor hf.issued hcur hsound hok
      · have hvouches := Registry.vouches_materializeAll (r := g.registry) cs
        rw [hcs] at hcur ⊢
        exact hvouches.seesAlike hf.isFor hf.issued hcur
    · have hvouches := vouches_perform hsound (fun d methods h => hdefine ⟨d, methods, h⟩)
        fun c iface h => htrait ⟨c, iface, h⟩
      exact hvouches.seesAlike hf.isFor hf.issued hcur

/-- Of properties that are fields, what is recalled under a current guard is that they are. -/
def RecallsFields (g : Engine β) : Prop :=
  ∀ f, g.Recalls f → f.found.guard.isCurrent g.registry →
    g.registry.FieldOnly f.shape.receiver f.name →
    ∀ t, f.access.fieldTarget? f.name = some t → f.found.target = t

theorem RecallsFields.perform (h : g.RecallsFields) (hg : g.Reachable) :
    (g.perform op).RecallsFields := by
  have hg' : (g.perform op).Reachable := hg.perform trivial
  intro f hf hcur hfield t ht
  rcases recalls_perform hg hf with hold | ⟨_, _, -, hnew⟩
  · -- the receiver sees what it saw, so the property was a field before
    have hfounded := hg.founded hold
    have hbefore := Guard.isCurrent_of_later (later_perform hg.sound op) hfounded.issued hcur
    have hsees := seesAlike_perform hg hfounded hcur
    exact h f hold hbefore (hfield.of_seesAlike hsees) t ht
  · have hholds := hnew.holds
    rw [Finding.Holds, hfield.lookup hg'.sound ht] at hholds
    exact (Except.ok.inj hholds).symm

theorem Reachable.recallsFields (hg : g.Reachable) : g.RecallsFields := by
  suffices h : g.Reachable ∧ g.RecallsFields from h.2
  refine hg.invariant (P := fun g => g.Reachable ∧ g.RecallsFields) (fun settings => ?_) ?_
  · exact ⟨⟨settings, .refl⟩, fun _ hf => absurd hf (not_recalls_build settings)⟩
  · rintro g op - ⟨hg, h⟩
    exact ⟨hg.perform trivial, h.perform hg⟩

/-- Writing a field is recalled of nothing but writes of that name. -/
theorem Reachable.recalls_written (hg : g.Reachable) (hf : g.Recalls f) {field : String}
    (htarget : f.found.target = .writeField field) : f.access = .write ∧ f.name = field := by
  -- where a new finding was made, the engine has to be reachable, so the invariant carries both
  suffices h : g.Reachable ∧ ∀ f, g.Recalls f → f.found.target = .writeField field →
      f.access = .write ∧ f.name = field from h.2 f hf htarget
  refine hg.invariant (P := fun g => g.Reachable ∧ ∀ f, g.Recalls f →
    f.found.target = .writeField field → f.access = .write ∧ f.name = field) (fun settings => ?_) ?_
  · exact ⟨⟨settings, .refl⟩, fun _ hf => absurd hf (not_recalls_build settings)⟩
  · rintro g op - ⟨hg, h⟩
    refine ⟨hg.perform trivial, fun f hf htarget => ?_⟩
    rcases recalls_perform hg hf with hold | ⟨_, _, -, hnew⟩
    -- a finding made by the operation is what looking up gives, and only a write looks up a write
    · exact h f hold htarget
    · have hholds := hnew.holds
      rw [Finding.Holds, htarget] at hholds
      exact Registry.written_of_lookup hholds

/-! ### Answers -/

variable {access : Access} {name : String} {receiver : Value} {args : List Value}
variable {answer : Except DispatchError (Target β)}

/-- An access to a property that is a field is answered with the field. -/
theorem Answers.field (h : g.Answers access name receiver args answer) (hg : g.Reachable)
    (hfield : g.registry.FieldOnly (.ofValue g.registry receiver) name) {t : Target β}
    (ht : access.fieldTarget? name = some t) : answer = .ok t := by
  rcases h with hlookup | ⟨found, hrecalls, hcur, rfl⟩
  · rw [hlookup]
    exact hfield.lookup hg.sound ht _
  · exact congrArg Except.ok (hg.recallsFields _ hrecalls hcur hfield t ht)

/-- If an access is answered with writing a field, it is a write of that name. -/
theorem Answers.written (h : g.Answers access name receiver args answer) (hg : g.Reachable)
    {field : String} (hanswer : answer = .ok (.writeField field)) :
    access = .write ∧ name = field := by
  rcases h with hlookup | ⟨found, hrecalls, -, rfl⟩
  · rw [hlookup] at hanswer
    exact Registry.written_of_lookup hanswer
  · exact hg.recalls_written hrecalls (Except.ok.inj hanswer)

end Engine

end LateBinding
