import LateBinding.Proofs.SoleMethods

/-!
# Members that no class has

If no class on a lookup chain has a method of a name, calls of it go to the nearest hook for missing
methods (`Registry.lookup_of_unknown`). A property is read through the method that stands for it,
or else written to its field, unless there is an accessor (`Registry.lookup_read`,
`Registry.lookup_writeField`). Tables that were not changed have the methods of a declaration and
nothing else.
-/

namespace LateBinding

/-! ## Tables of declarations -/

namespace MemberTable

variable {β : Type} {t : MemberTable β} {m x : Method β} {declared : List (Method β)}
variable {c : ClassRef} {name : String}

theorem holds_addMethod (h : (t.addMethod m).Holds x) : x = m ∨ t.Holds x := by
  obtain ⟨k, hk⟩ := h
  rw [bucket_addMethod] at hk
  split at hk
  · exact (mem_of_mem_install hk).imp id fun hx => ⟨k, hx⟩
  · exact .inr ⟨k, hk⟩

/-- A table holds no other methods than those that its class declares. -/
theorem holds_ofDeclared (h : (ofDeclared c declared).Holds x) : x ∈ declared := by
  have hfold : ∀ (declared : List (Method β)) (t : MemberTable β),
      (declared.foldl addMethod t).Holds x → x ∈ declared ∨ t.Holds x := by
    intro declared
    -- methods are added one after another, to a table that may hold some already
    induction declared with
    | nil => exact fun _ hx => .inr hx
    | cons m rest ih =>
      intro t hx
      rcases ih (t.addMethod m) hx with hrest | hadded
      · exact .inl (List.mem_cons_of_mem _ hrest)
      · rcases holds_addMethod hadded with rfl | hold
        · exact .inl List.mem_cons_self
        · exact .inr hold
  rcases hfold declared _ h with hx | ⟨k, hk⟩
  · exact hx
  · exact absurd hk List.not_mem_nil

/-- A hook is no method. -/
theorem holds_of_setMethodMissing {hook : Option β} {serial : Nat}
    (h : (t.apply (.setMethodMissing hook) serial).Holds x) : t.Holds x := h

theorem property?_ofDeclared : (ofDeclared c declared).property? name = none := by
  have hfold : ∀ (declared : List (Method β)) (t : MemberTable β),
      (declared.foldl addMethod t).properties = t.properties := by
    intro declared
    -- adding a method leaves the properties of any table
    induction declared with
    | nil => exact fun _ => rfl
    | cons m rest ih => exact fun t => ih (t.addMethod m)
  rw [property?, ofDeclared, hfold]
  rfl

end MemberTable

namespace Registry

variable {β : Type} {r : Registry β} {c : ClassRef} {m : Method β} {name : String}
variable {args : List ClassRef}

/-- Methods keep their signatures when they are numbered. -/
theorem exists_of_mem_number {serial : Nat} {ds : List (MethodDecl β)} (h : m ∈ number serial ds) :
    ∃ d ∈ ds, m.signature = d.signature := by
  induction ds generalizing serial with
  | nil => exact absurd h List.not_mem_nil
  | cons d rest ih =>
    rcases List.mem_cons.mp h with rfl | h
    · exact ⟨d, List.mem_cons_self, rfl⟩
    · obtain ⟨d', hd', hsame⟩ := ih h
      exact ⟨d', List.mem_cons_of_mem _ hd', hsame⟩

/-- No class on the lookup chain of a class has a method of the name. -/
def Unknown (r : Registry β) (c : ClassRef) (name : String) : Prop :=
  ∀ b ∈ r.hierarchy.chain c, ∀ m, (r.members b).Holds m → m.signature.name ≠ name

theorem Unknown.no_fixed (h : r.Unknown c name) :
    ∀ b ∈ r.hierarchy.chain c, ¬ r.HasFixed name args b := by
  rintro b hb ⟨m, hholds, hname, -⟩
  exact h b hb m hholds hname

theorem Unknown.no_variadic (h : r.Unknown c name) :
    ∀ b ∈ r.hierarchy.chain c, ¬ r.HasVariadic name args b := by
  rintro b hb ⟨m, hholds, hname, -⟩
  exact h b hb m hholds hname

/-- No class on the lookup chain of a class has an accessor for the property. -/
def NoAccessor (r : Registry β) (c : ClassRef) (name : String) : Prop :=
  ∀ b ∈ r.hierarchy.chain c, (r.members b).property? name = none

theorem NoAccessor.findSome? (h : r.NoAccessor c name) :
    (r.classPath c).findSome? (·.property? name) = none := by
  rw [List.findSome?_eq_none_iff]
  intro t ht
  obtain ⟨b, hb, rfl⟩ := List.mem_map.mp ht
  exact h b hb

theorem lookup_eq_find {access : Access} (hc : r.hierarchy.Declares c) (args : List ClassRef) :
    r.lookup access (.plain c) name args =
      Lookup.find r.hierarchy (r.classPath c) access c name args := by
  obtain ⟨info, hinfo⟩ := hc.find
  unfold lookup
  simp only [Receiver.cls, hinfo]
  rfl

/-- A property without an accessor is read through the method that stands for it. -/
theorem lookup_read (h : r.SoleMethod c m) (hplain : r.NoAccessor c name)
    (hname : "get" ++ Text.capitalize name = m.signature.name)
    (hexact : m.signature.acceptsExactly []) :
    r.lookup .read (.plain c) name [] = .ok (.method m) := by
  have hreader : Lookup.findReader r.hierarchy (r.classPath c) c name = .ok (some m) := by
    rw [Lookup.findReader, hname, h.findFixed [] hexact]
  rw [lookup_eq_find h.declares, Lookup.find, Lookup.findRead, hplain.findSome?]
  simp only [hreader]

section

variable (hr : r.Sound) (hc : r.hierarchy.Declares c)
include hr hc

/-- A call of a method that no class has goes to the nearest hook. -/
theorem lookup_of_unknown (h : r.Unknown c name) {hook : Hook β}
    (hhook : (r.classPath c).findSome? (·.methodMissing) = some hook) (args : List ClassRef) :
    r.lookup .method (.plain c) name args = .ok (.methodMissing name hook) := by
  rw [lookup_of_neither hr hc h.no_fixed h.no_variadic, hhook]

/-- A property is written to its field if there is neither an accessor nor a method that stands for
writing it. -/
theorem lookup_writeField (hplain : r.NoAccessor c name)
    (h : r.Unknown c ("set" ++ Text.capitalize name))
    (hfield : Lookup.hasField r.hierarchy c name) (value : ClassRef) :
    r.lookup .write (.plain c) name [value] = .ok (.writeField name) := by
  -- no class on the path has the method, so none of them makes an offer
  have hwriter : Lookup.findWriter r.hierarchy (r.classPath c) c name value = .ok none :=
    firstOffer_classPath_none h.no_fixed fun b => fixedIn_members_eq_none hr c b
  rw [lookup_eq_find hc, Lookup.find, Lookup.findWrite, hplain.findSome?]
  simp only [List.headD_cons, hwriter, hfield, if_true]

end

end Registry

end LateBinding
