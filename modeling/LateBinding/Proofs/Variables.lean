import LateBinding.Proofs.Layers
import Mathlib.Data.List.TakeWhile

/-!
# Texts of environment variables

Six variables override settings. Which texts they take is stated without the reader: a number is
some digits, with a plus sign before them or none, underscores anywhere between and around them and
blanks outside of these (`Settings.WritesNumber`), and a flag is one of eight words
(`Settings.WritesFlag`). A variable that has such a text acts like settings with that value and no
variable; with any other text it is named by the error, unless one that is looked at before it is
not written well either (`Settings.withOverrides_of_set`).
-/

namespace LateBinding

/-! ## Numerals -/

namespace Numeral

variable {c : Char} {cs : List Char} {d n m : Nat}

theorem digit?_ten_eq_some_iff : digit? 10 c = some d ↔ c.isDigit ∧ c.toNat - '0'.toNat = d := by
  have hdigit : c.isDigit = true ↔ '0' ≤ c ∧ c ≤ '9' := by
    simp [Char.isDigit, Char.le_def]
  rw [digit?, Option.filter_eq_some_iff, decide_eq_true_eq, hdigit]
  split
  · next h =>
    have hle : c.toNat ≤ '9'.toNat := h.2
    simp only [Char.reduceToNat, Option.some.injEq, h, and_self, true_and] at hle ⊢
    omega
  · next h =>
    -- Letters stand for ten and above.
    simp only [h, false_and, iff_false, not_and, Nat.not_lt]
    split
    · rintro ⟨rfl⟩
      omega
    · split
      · rintro ⟨rfl⟩
        omega
      · exact nofun

theorem le_ofDigitChars (cs : List Char) (n : Nat) : n ≤ Nat.ofDigitChars 10 cs n := by
  rw [Nat.ofDigitChars_eq_ofDigitChars_zero]
  have : 1 * n ≤ 10 ^ cs.length * n := Nat.mul_le_mul_right n (Nat.pow_pos (by decide))
  omega

/-- Digits continue a word to the number that they write, if that is a word. -/
theorem extendWord_eq_ok_iff (hn : n < Word.size) : extendWord n cs = .ok m ↔
    (∀ c ∈ cs, c.isDigit) ∧ Nat.ofDigitChars 10 cs n = m ∧ m < Word.size := by
  -- The number read so far moves along, and stays a word as long as the reader goes on.
  induction cs generalizing n with
  | nil =>
    simp only [extendWord, Except.ok.injEq, List.not_mem_nil, false_implies, implies_true, true_and,
      Nat.ofDigitChars_nil]
    exact ⟨fun h => ⟨h, h ▸ hn⟩, And.left⟩
  | cons c cs ih =>
    simp only [extendWord, List.forall_mem_cons, Nat.ofDigitChars_cons]
    cases hdigit : digit? 10 c with
    | none =>
      have hc : ¬ c.isDigit := fun hc => by
        rw [digit?_ten_eq_some_iff.mpr ⟨hc, rfl⟩] at hdigit
        cases hdigit
      simp [hc]
    | some d =>
      obtain ⟨hc, rfl⟩ := digit?_ten_eq_some_iff.mp hdigit
      simp only [hc, true_and]
      split
      · next hlt => exact ih hlt
      · next hlarge =>
        -- The number only grows from here on, so what is no word now is none in the end.
        have hgrow := le_ofDigitChars cs (10 * n + (c.toNat - '0'.toNat))
        simp only [reduceCtorEq, false_iff]
        rintro ⟨-, hvalue, hm⟩
        omega

/-- The characters are digits, one or more, after a plus sign or without one, and write a word. -/
def Writes (cs : List Char) (n : Nat) : Prop :=
  ∃ digits, (cs = digits ∨ cs = '+' :: digits) ∧ digits ≠ [] ∧ (∀ c ∈ digits, c.isDigit) ∧
    Nat.ofDigitChars 10 digits 0 = n ∧ n < Word.size

theorem word_eq_ok_iff : word cs = .ok n ↔ Writes cs n := by
  have hzero : 0 < Word.size := by decide
  unfold word
  split
  · simp [Writes]
  -- a plus sign alone has no digits after it
  · refine ⟨nofun, ?_⟩
    rintro ⟨digits, rfl | h, hne, hdigits, -⟩
    · simp at hdigits
    · obtain rfl := (List.cons.inj h).2
      exact absurd rfl hne
  -- after a plus sign digits must follow, and neither form begins with a second sign
  · next rest hne =>
    rw [extendWord_eq_ok_iff hzero]
    constructor
    · intro h
      exact ⟨rest, .inr rfl, by simpa using hne, h⟩
    · rintro ⟨digits, rfl | h, -, hdigits, hvalue⟩
      · simp at hdigits
      · obtain rfl := (List.cons.inj h).2
        exact ⟨hdigits, hvalue⟩
  -- without a plus sign the text itself must be the digits
  · next hnil hsign hplus =>
    rw [extendWord_eq_ok_iff hzero]
    constructor
    · intro h
      exact ⟨cs, .inl rfl, hnil, h⟩
    · rintro ⟨digits, rfl | rfl, -, hdigits⟩
      · exact hdigits
      · exact absurd rfl (hplus digits)

/-- The decimal digits of a word write it. -/
theorem writes_toDigits (hn : n < Word.size) : Writes (Nat.toDigits 10 n) n :=
  ⟨_, .inl rfl, Nat.toDigits_ne_nil,
    fun _ hc => Nat.isDigit_of_mem_toDigits (by decide) (Nat.le_refl 10) hc,
    Nat.ofDigitChars_ten_toDigits, hn⟩

end Numeral

/-! ## Blanks at the ends -/

namespace Text

variable {cs core : List Char}

/-- All but `core` is blank, and `core` is not blank at its ends. -/
def Trims (cs core : List Char) : Prop :=
  ∃ before after, cs = before ++ core ++ after ∧ (∀ c ∈ before, isBlank c) ∧
    (∀ c ∈ after, isBlank c) ∧ (∀ c ∈ core.head?, isBlank c = false) ∧
    ∀ c ∈ core.getLast?, isBlank c = false

/-- The blanks at the start of a text, and where they end. -/
theorem exists_blanks_append (cs : List Char) : ∃ blanks, cs = blanks ++ cs.dropWhile isBlank ∧
    (∀ c ∈ blanks, isBlank c) ∧ ∀ c ∈ (cs.dropWhile isBlank).head?, isBlank c = false := by
  refine ⟨cs.takeWhile isBlank, List.takeWhile_append_dropWhile.symm,
    fun c hc => List.mem_takeWhile_imp hc, fun c hc => ?_⟩
  have hstop := List.head?_dropWhile_not isBlank cs
  rw [hc] at hstop
  exact hstop

theorem dropWhile_blanks_append {blanks rest : List Char} (hblanks : ∀ c ∈ blanks, isBlank c)
    (hrest : ∀ c ∈ rest.head?, isBlank c = false) :
    (blanks ++ rest).dropWhile isBlank = rest := by
  rw [List.dropWhile_append_of_pos hblanks]
  cases rest with
  | nil => rfl
  | cons c rest =>
    exact List.dropWhile_cons_of_neg (by simp [hrest c rfl])

theorem isBlank_of_isDigit {c : Char} (h : c.isDigit) : isBlank c = false := by
  have hrange : 48 ≤ c.toNat ∧ c.toNat ≤ 57 := by
    simpa [Char.isDigit, Char.le_def, UInt32.le_iff_toNat_le] using h
  simp only [isBlank, Bool.or_eq_false_iff, Bool.and_eq_false_iff, decide_eq_false_iff_not,
    beq_eq_false_iff_ne]
  omega

theorem trims_strip (cs : List Char) : Trims cs (strip cs) := by
  obtain ⟨before, hcs, hbefore, hstart⟩ := exists_blanks_append cs
  obtain ⟨after, hrest, hafter, hend⟩ := exists_blanks_append (cs.dropWhile isBlank).reverse
  -- what is dropped from the reversed text stood at the end
  have hsplit : cs.dropWhile isBlank = strip cs ++ after.reverse := by
    rw [strip, ← List.reverse_append, ← hrest, List.reverse_reverse]
  refine ⟨before, after.reverse, ?_, hbefore, by simpa using hafter, fun c hc => ?_, fun c hc => ?_⟩
  · rw [List.append_assoc, ← hsplit]
    exact hcs
  · refine hstart c ?_
    rw [hsplit, List.head?_append, hc]
    rfl
  · rw [strip, List.getLast?_reverse] at hc
    exact hend c hc

theorem strip_eq_iff : strip cs = core ↔ Trims cs core := by
  constructor
  · rintro rfl
    exact trims_strip cs
  · rintro ⟨before, after, rfl, hbefore, hafter, hstart, hend⟩
    -- blanks before and after are dropped, and neither end of the core is one
    cases core with
    | nil =>
      have hblank : ∀ c ∈ before ++ [] ++ after, isBlank c := by
        simpa [or_imp, forall_and] using ⟨hbefore, hafter⟩
      rw [strip, List.dropWhile_eq_nil_iff.mpr hblank]
      rfl
    | cons c core =>
      have hrest : ((c :: core) ++ after).dropWhile isBlank = (c :: core) ++ after :=
        @dropWhile_blanks_append [] _ nofun hstart
      rw [strip, List.append_assoc, List.dropWhile_append_of_pos hbefore, hrest,
        List.reverse_append, dropWhile_blanks_append (by simpa using hafter)
          (by rwa [List.head?_reverse]), List.reverse_reverse]

end Text

namespace Settings

/-! ## Values that texts write -/

/-- Between blanks and without underscores, the text is a numeral. -/
def WritesNumber (raw : String) (n : Nat) : Prop :=
  ∃ core, Text.Trims raw.toList core ∧ Numeral.Writes (core.filter (· ≠ '_')) n

theorem readNumber_eq_ok_iff {raw : String} {n : Nat} :
    readNumber raw = .ok n ↔ WritesNumber raw n := by
  simp only [WritesNumber, ← Text.strip_eq_iff, exists_eq_left', ← Numeral.word_eq_ok_iff]
  rw [readNumber, Text.trim, String.toList_ofList]

def flagWords : Bool → List String
  | true => ["1", "true", "on", "yes"]
  | false => ["0", "false", "off", "no"]

theorem not_mem_flagWords {word : String} {b : Bool} (h : word ∈ flagWords b) :
    word ∉ flagWords !b := by
  have hdisjoint : ∀ b, ∀ word ∈ flagWords b, word ∉ flagWords !b := by decide
  exact hdisjoint b word h

/-- Between blanks, the text is a word for the flag, in capital or small letters. -/
def WritesFlag (raw : String) (b : Bool) : Prop :=
  ∃ core, Text.Trims raw.toList core ∧ String.ofList (core.map Char.toLower) ∈ flagWords b

theorem readFlag_eq_ok_iff {raw : String} {b : Bool} :
    readFlag raw = .ok b ↔ WritesFlag raw b := by
  simp only [WritesFlag, ← Text.strip_eq_iff, exists_eq_left']
  rw [readFlag, Text.trim, Text.lowerAscii, String.toList_ofList]
  -- what is left to compare are the words, and no word stands for both values
  generalize String.ofList ((Text.strip raw.toList).map Char.toLower) = word
  simp only [List.contains_iff_mem]
  split
  · next h =>
    cases b with
    | true => exact iff_of_true rfl h
    | false => exact iff_of_false nofun (not_mem_flagWords (b := true) h)
  · next h =>
    split
    · next h' =>
      cases b with
      | true => exact iff_of_false nofun h
      | false => exact iff_of_true rfl h'
    · next h' =>
      cases b with
      | true => exact iff_of_false nofun h
      | false => exact iff_of_false nofun h'

/-- A text that is no flag is refused as such. -/
theorem eq_flag_of_readFlag {raw : String} {fault : Fault} (h : readFlag raw = .error fault) :
    ∃ word, fault = .flag word := by
  unfold readFlag at h
  dsimp only at h
  split at h
  · cases h
  · split at h
    · cases h
    · cases h
      exact ⟨_, rfl⟩

/-! ## The variables -/

/-- The variables that override settings. -/
inductive Variable
  | cacheSize
  | optimizeThreshold
  | fallbackThreshold
  | megamorphicMultiplier
  | stableWindow
  | memoize
deriving DecidableEq

namespace Variable

/-- The variables in the order in which they are looked at. -/
def all : List Variable :=
  [cacheSize, optimizeThreshold, fallbackThreshold, megamorphicMultiplier, stableWindow, memoize]

def name : Variable → String
  | cacheSize => "DYNSITE_CALLSITE_CACHE_SIZE"
  | optimizeThreshold => "DYNSITE_OPTIMIZE_THRESHOLD"
  | fallbackThreshold => "DYNSITE_FALLBACK_THRESHOLD"
  | megamorphicMultiplier => "DYNSITE_MEGAMORPHIC_MULTIPLIER"
  | stableWindow => "DYNSITE_STABLE_WINDOW"
  | memoize => "DYNSITE_MEMOIZE"

/-- The setting that a variable overrides. -/
def key : Variable → Key
  | cacheSize => .cacheCapacity
  | optimizeThreshold => .optimizeThreshold
  | fallbackThreshold => .fallbackThreshold
  | megamorphicMultiplier => .megamorphicMultiplier
  | stableWindow => .stableWindow
  | memoize => .memoizeResolutions

/-- The variables that are looked at before this one. -/
def earlier (x : Variable) : List Variable := all.takeWhile (· ≠ x)

/-- The text of a variable writes a value of the right kind: a flag for one of them, a number for
the others. -/
inductive Writes : Variable → String → Given → Prop
  | flag {raw : String} {b : Bool} (hraw : WritesFlag raw b) : Writes memoize raw (.flag b)
  | number {x : Variable} {raw : String} {n : Nat} (hx : x ≠ memoize)
    (hraw : WritesNumber raw n) : Writes x raw (.number n)

/-- What the error says of a variable. -/
def complaint (x : Variable) (raw : String) : String :=
  match x with
  | memoize => x.name ++ "=" ++ raw
  | x => x.name ++ "=" ++ raw ++ " is not a valid number"

/-- What one variable does to settings. -/
def override (env : Environment) (s : Settings) : Variable → Except Failure Settings
  | memoize =>
    (fun b => { s with memoizeResolutions := b }) <$> flagOf env memoize.name s.memoizeResolutions
  | x => s.setNumber x.key <$> numberOf env x.name ((s.value x.key).number?.getD 0)

end Variable

section

variable {s s₁ s₂ s' : Settings} {env env' : Environment} {x y : Variable} {raw : String}
  {k k' : Key} {v w : Given}

/-- The variables are looked at one after another. -/
theorem overrideUnchecked_eq_foldlM :
    s.overrideUnchecked env = Variable.all.foldlM (Variable.override env) s := by
  simp only [overrideUnchecked, Variable.all, List.foldlM_cons, List.foldlM_nil, Variable.override,
    Variable.name, Variable.key, value, Given.number?, Option.getD_some, setNumber,
    map_eq_pure_bind, bind_assoc, pure_bind]

/-! ## Values put into settings -/

theorem ext_value (h : ∀ k, s.value k = s'.value k) : s = s' := by
  have hcache := h .cacheCapacity
  have hoptimize := h .optimizeThreshold
  have hfallback := h .fallbackThreshold
  have hmultiplier := h .megamorphicMultiplier
  have hwindow := h .stableWindow
  have hmemoize := h .memoizeResolutions
  have hmemo := h .memoCapacity
  cases s
  cases s'
  simp_all only [value, Given.number.injEq, Given.flag.injEq]

/-- Whether a value can be put depends on the setting and the value alone. -/
theorem exists_put (h : s.put? k v = some s₁) (s' : Settings) : ∃ s₂, s'.put? k v = some s₂ := by
  unfold put? at h ⊢
  split at h
  · exact ⟨_, rfl⟩
  · cases h
  · split at h
    · next hlt => exact ⟨_, if_pos hlt⟩
    · cases h
  · cases h

theorem put_put (h : s.put? k v = some s₁) : s₁.put? k v = some s₁ := by
  obtain ⟨s₂, h₂⟩ := exists_put h s₁
  have heq : s₂ = s₁ := ext_value fun k' => by
    rw [value_put h₂, value_put h]
    split <;> rfl
  rw [h₂, heq]

theorem put_comm (hk : k ≠ k') (h : s.put? k v = some s₁) (h' : s.put? k' w = some s₂) :
    ∃ s', s₁.put? k' w = some s' ∧ s₂.put? k v = some s' := by
  obtain ⟨t, ht⟩ := exists_put h' s₁
  obtain ⟨t', ht'⟩ := exists_put h s₂
  have heq : t' = t := ext_value fun k₀ => by
    rw [value_put ht, value_put ht', value_put h, value_put h']
    by_cases hk₀ : k₀ = k
    · subst hk₀
      simp only [if_neg hk, if_true]
    · simp only [if_neg hk₀]
  exact ⟨t, ht, heq ▸ ht'⟩

/-! ## What one variable does -/

namespace Variable

theorem name_injective : name.Injective := by
  intro x y h
  cases x <;> cases y <;> first | rfl | exact absurd h (by decide)

theorem key_injective : key.Injective := by
  intro x y h
  cases x <;> cases y <;> first | rfl | cases h

theorem Writes.unique (hv : x.Writes raw v) (hw : x.Writes raw w) : v = w := by
  -- a flag and a number are written by different variables
  cases hv with
  | flag hv =>
    cases hw with
    | flag hw =>
      rw [← readFlag_eq_ok_iff] at hv hw
      rw [Except.ok.inj (hv.symm.trans hw)]
    | number hx => exact absurd rfl hx
  | number hx hv =>
    cases hw with
    | flag => exact absurd rfl hx
    | number _ hw =>
      rw [← readNumber_eq_ok_iff] at hv hw
      rw [Except.ok.inj (hv.symm.trans hw)]

theorem override_congr (h : env x.name = env' x.name) : override env s x = override env' s x := by
  cases x <;> simp only [override, numberOf, flagOf, h]

theorem override_of_unset (hunset : env x.name = none) : override env s x = .ok s := by
  cases x <;> simp only [override, numberOf, flagOf, hunset] <;> rfl

theorem override_of_ne (hx : x ≠ memoize) : override env s x =
    s.setNumber x.key <$> numberOf env x.name ((s.value x.key).number?.getD 0) := by
  cases x <;> first | rfl | exact absurd rfl hx

theorem complaint_of_ne (hx : x ≠ memoize) :
    x.complaint raw = x.name ++ "=" ++ raw ++ " is not a valid number" := by
  cases x <;> first | rfl | exact absurd rfl hx

/-- A variable with a text for its setting puts what is written there. -/
theorem override_of_writes (s : Settings) (hset : env x.name = some raw) (hraw : x.Writes raw v) :
    ∃ s₁, s.put? x.key v = some s₁ ∧ override env s x = .ok s₁ := by
  cases hraw with
  | @flag _ b hraw =>
    have hread : flagOf env memoize.name s.memoizeResolutions = .ok b := by
      simp only [flagOf, hset, readFlag_eq_ok_iff.mpr hraw]
    exact ⟨_, rfl, by rw [override, hread]; rfl⟩
  | @number _ _ n hx hraw =>
    have hread (otherwise : Nat) : numberOf env x.name otherwise = .ok n := by
      simp only [numberOf, hset, readNumber_eq_ok_iff.mpr hraw]
    -- whoever writes a number writes a word
    have hlt : n < Word.size := by
      obtain ⟨_, -, _, -, -, -, -, hlt⟩ := hraw
      exact hlt
    refine ⟨s.setNumber x.key n, ?_, by rw [override_of_ne hx, hread]; rfl⟩
    cases x <;> first | exact if_pos hlt | exact absurd rfl hx

/-- A variable with any other text is an error that names the variable. -/
theorem override_of_not_writes (hset : env x.name = some raw) (hraw : ∀ v, ¬ x.Writes raw v) :
    ∃ fault, ∀ s, override env s x = .error ⟨[x.complaint raw], fault⟩ := by
  -- the one flag is read by another reader than the numbers
  by_cases hx : x = memoize
  · subst hx
    cases hread : readFlag raw with
    | ok b => exact absurd (.flag (readFlag_eq_ok_iff.mp hread)) (hraw (.flag b))
    | error fault =>
      obtain ⟨word, rfl⟩ := eq_flag_of_readFlag hread
      refine ⟨.flag word, fun s => ?_⟩
      simp only [override, flagOf, hset, hread]
      rfl
  · cases hread : readNumber raw with
    | ok n => exact absurd (.number hx (readNumber_eq_ok_iff.mp hread)) (hraw (.number n))
    | error fault =>
      refine ⟨.number fault, fun s => ?_⟩
      rw [override_of_ne hx, complaint_of_ne hx]
      simp only [numberOf, hset, hread]
      rfl

/-- A variable whose text is one for its setting, or which is not set, gives settings. -/
theorem override_of_readable (s : Settings)
    (h : ∀ raw, env y.name = some raw → ∃ v, y.Writes raw v) : ∃ s₁, override env s y = .ok s₁ := by
  cases hset : env y.name with
  | none => exact ⟨s, override_of_unset hset⟩
  | some raw =>
    obtain ⟨v, hraw⟩ := h raw hset
    obtain ⟨s₁, -, hover⟩ := override_of_writes s hset hraw
    exact ⟨s₁, hover⟩

end Variable

/-! ## What the variables do together -/

/-- The environment without one variable. -/
def Environment.without (env : Environment) (x : Variable) : Environment :=
  fun name => if name = x.name then none else env name

theorem Environment.without_self : env.without x x.name = none := if_pos rfl

theorem Environment.without_of_ne (h : y ≠ x) : env.without x y.name = env y.name :=
  if_neg (mt (@Variable.name_injective _ _) h)

/-- A variable with a text for its setting makes no difference to settings that hold what is written
there already. The induction allows for settings that hold it when the variable is still to come, as
well as for equal settings after it. -/
theorem foldlM_override_without {ys : List Variable} (hset : env x.name = some raw)
    (hraw : x.Writes raw v) (hput : s.put? x.key v = some s₁) (hx : x ∈ ys ∨ s = s₁) :
    ys.foldlM (Variable.override env) s = ys.foldlM (Variable.override (env.without x)) s₁ := by
  induction ys generalizing s s₁ with
  | nil =>
    obtain rfl := hx.resolve_left List.not_mem_nil
    rfl
  | cons y ys ih =>
    rw [List.foldlM_cons, List.foldlM_cons]
    by_cases hyx : y = x
    -- here the one run reads the text and the other finds its value in place, so both go on alike
    · subst hyx
      obtain ⟨s₂, hput₂, hover⟩ := Variable.override_of_writes s hset hraw
      obtain rfl := Option.some.inj (hput₂.symm.trans hput)
      rw [hover, Variable.override_of_unset Environment.without_self]
      exact ih (put_put hput) (.inr rfl)
    · have hx : x ∈ ys ∨ s = s₁ :=
        hx.imp_left fun h => (List.mem_cons.mp h).resolve_left fun h => hyx h.symm
      have hsame : Variable.override (env.without x) s₁ y = Variable.override env s₁ y :=
        Variable.override_congr (Environment.without_of_ne hyx)
      rw [hsame]
      -- any other variable does the same to both settings, which still differ in `x` alone
      cases hset' : env y.name with
      | none =>
        rw [Variable.override_of_unset hset', Variable.override_of_unset hset']
        exact ih hput hx
      | some raw' =>
        by_cases hwritten : ∃ w, y.Writes raw' w
        · obtain ⟨w, hraw'⟩ := hwritten
          obtain ⟨t, ht, hover⟩ := Variable.override_of_writes s hset' hraw'
          obtain ⟨t₁, ht₁, hover₁⟩ := Variable.override_of_writes s₁ hset' hraw'
          obtain ⟨t', ht', hput'⟩ :=
            -- what it puts, and what `x` puts, go to different settings
            put_comm (mt (@Variable.key_injective _ _) fun h => hyx h.symm) hput ht
          obtain rfl := Option.some.inj (ht₁.symm.trans ht')
          rw [hover, hover₁]
          refine ih hput' (hx.imp_right fun h => ?_)
          subst h
          exact Option.some.inj (ht.symm.trans ht₁)
        · obtain ⟨fault, herror⟩ :=
            Variable.override_of_not_writes hset' (not_exists.mp hwritten)
          rw [herror, herror]
          rfl

/-- A variable that is not set leaves its setting as it is. -/
theorem value_foldlM_override {ys : List Variable} (hunset : env x.name = none)
    (h : ys.foldlM (Variable.override env) s = .ok s') : s'.value x.key = s.value x.key := by
  induction ys generalizing s with
  | nil =>
    cases h
    rfl
  | cons y ys ih =>
    rw [List.foldlM_cons] at h
    obtain ⟨s₁, hover, h⟩ := bind_eq_ok_iff.mp h
    rw [ih h]
    cases hset : env y.name with
    | none =>
      rw [Variable.override_of_unset hset] at hover
      rw [Except.ok.inj hover]
    | some raw =>
      by_cases hwritten : ∃ w, y.Writes raw w
      · obtain ⟨w, hraw⟩ := hwritten
        obtain ⟨s₂, hput, hover₂⟩ := Variable.override_of_writes s hset hraw
        obtain rfl := Except.ok.inj (hover₂.symm.trans hover)
        -- a variable that is set is not `x`, so it puts its value elsewhere
        have hne : x.key ≠ y.key := fun h => by
          rw [Variable.key_injective h, hset] at hunset
          cases hunset
        rw [value_put hput, if_neg hne]
      -- a text that cannot be read stops the run, which did not stop
      · obtain ⟨fault, herror⟩ := Variable.override_of_not_writes hset (not_exists.mp hwritten)
        rw [herror] at hover
        cases hover

/-- If the variables before one can be read and that one cannot, its error is the error. -/
theorem foldlM_override_error {ys zs : List Variable} {f : Failure}
    (hys : ∀ y ∈ ys, ∀ raw, env y.name = some raw → ∃ v, y.Writes raw v)
    (hx : ∀ s, Variable.override env s x = .error f) :
    (ys ++ x :: zs).foldlM (Variable.override env) s = .error f := by
  -- each variable before `x` is read and makes way for the next one
  induction ys generalizing s with
  | nil =>
    rw [List.nil_append, List.foldlM_cons, hx]
    rfl
  | cons y ys ih =>
    obtain ⟨hy, hys⟩ := List.forall_mem_cons.mp hys
    obtain ⟨s₁, hover⟩ := Variable.override_of_readable s hy
    rw [List.cons_append, List.foldlM_cons, hover]
    exact ih hys

/-- Overriding succeeds only if each variable can be read. -/
theorem exists_override_of_foldlM {ys : List Variable}
    (h : ys.foldlM (Variable.override env) s = .ok s') (hx : x ∈ ys) :
    ∃ s₁ s₂, Variable.override env s₁ x = .ok s₂ := by
  induction ys generalizing s with
  | nil => cases hx
  | cons y ys ih =>
    rw [List.foldlM_cons] at h
    obtain ⟨s₁, hover, h⟩ := bind_eq_ok_iff.mp h
    rcases List.mem_cons.mp hx with rfl | hx
    · exact ⟨s, s₁, hover⟩
    · exact ih h hx

namespace Variable

theorem mem_all (x : Variable) : x ∈ all := by
  cases x <;> decide

theorem exists_all_eq (x : Variable) : ∃ later, all = x.earlier ++ x :: later := by
  cases x <;> exact ⟨_, rfl⟩

/-- Digits with underscores anywhere and blanks outside write what the digits write. -/
theorem writes_of_digits {before digits after : List Char} {n : Nat} (hx : x ≠ memoize)
    (hn : n < Word.size) (hbefore : ∀ c ∈ before, Text.isBlank c)
    (hafter : ∀ c ∈ after, Text.isBlank c) (hdigits : digits.filter (· ≠ '_') = Nat.toDigits 10 n) :
    x.Writes (String.ofList (before ++ digits ++ after)) (.number n) := by
  -- the core begins and ends with a digit or an underscore, so it takes no blank in
  have hinner : ∀ c ∈ digits, Text.isBlank c = false := fun c hc => by
    by_cases hunder : c = '_'
    · rw [hunder]
      rfl
    · have hmem : c ∈ Nat.toDigits 10 n := by
        rw [← hdigits]
        exact List.mem_filter.mpr ⟨hc, decide_eq_true hunder⟩
      exact Text.isBlank_of_isDigit (Nat.isDigit_of_mem_toDigits (by decide) (Nat.le_refl 10) hmem)
  refine .number hx ⟨digits, ?_, hdigits ▸ Numeral.writes_toDigits hn⟩
  rw [String.toList_ofList]
  exact ⟨before, after, rfl, hbefore, hafter, fun c hc => hinner c (List.mem_of_mem_head? hc),
    fun c hc => hinner c (List.mem_of_mem_getLast? hc)⟩

end Variable

/-- A variable with a text for its setting acts like settings with that value. -/
theorem withOverrides_of_writes (s : Settings) (hset : env x.name = some raw)
    (hraw : x.Writes raw v) : ∃ s₁, s.put? x.key v = some s₁ ∧
      s.withOverrides env = s₁.withOverrides (env.without x) := by
  obtain ⟨s₁, hput, -⟩ := Variable.override_of_writes s hset hraw
  refine ⟨s₁, hput, ?_⟩
  simp only [withOverrides, overrideUnchecked_eq_foldlM,
    foldlM_override_without hset hraw hput (.inl x.mem_all)]

theorem value_of_unset (hunset : env x.name = none) (h : s.withOverrides env = .ok s') :
    s'.value x.key = s.value x.key := by
  obtain ⟨s₁, hover, hchecked⟩ := withOverrides_eq_ok_iff_stages.mp h
  rw [overrideUnchecked_eq_foldlM] at hover
  rw [← (checked_eq_ok_iff.mp hchecked).2, value_foldlM_override hunset hover]

theorem exists_writes_of_ok (hset : env x.name = some raw) (h : s.withOverrides env = .ok s') :
    ∃ v, x.Writes raw v := by
  by_contra hnone
  obtain ⟨fault, herror⟩ := Variable.override_of_not_writes hset (not_exists.mp hnone)
  obtain ⟨s₁, hover, -⟩ := withOverrides_eq_ok_iff_stages.mp h
  rw [overrideUnchecked_eq_foldlM] at hover
  obtain ⟨_, _, hover⟩ := exists_override_of_foldlM hover x.mem_all
  rw [herror] at hover
  cases hover

/-- After success, the setting has the value that the text writes. -/
theorem value_eq_iff_writes (hset : env x.name = some raw) (h : s.withOverrides env = .ok s') :
    s'.value x.key = v ↔ x.Writes raw v := by
  obtain ⟨w, hraw⟩ := exists_writes_of_ok hset h
  obtain ⟨s₁, hput, heq⟩ := withOverrides_of_writes s hset hraw
  have hvalue : s'.value x.key = w := by
    rw [value_of_unset Environment.without_self (heq.symm.trans h), value_put hput, if_pos rfl]
  rw [hvalue]
  constructor
  · rintro rfl
    exact hraw
  · exact hraw.unique

theorem withOverrides_of_not_writes (s : Settings) (hset : env x.name = some raw)
    (hraw : ∀ v, ¬ x.Writes raw v)
    (hearlier : ∀ y ∈ x.earlier, ∀ text, env y.name = some text → ∃ v, y.Writes text v) :
    ∃ fault, s.withOverrides env = .error ⟨[x.complaint raw], fault⟩ := by
  obtain ⟨fault, herror⟩ := Variable.override_of_not_writes hset hraw
  obtain ⟨later, hall⟩ := x.exists_all_eq
  refine ⟨fault, ?_⟩
  simp only [withOverrides, overrideUnchecked_eq_foldlM, hall,
    foldlM_override_error hearlier herror]

/-- What a variable does by its text. If the text writes a value for the setting, the variable acts
like settings with that value and no variable. If overriding succeeds, the value in the end is the
one that the text writes. Any other text is an error that names the variable, unless an earlier
variable has no text for its setting either; what later variables contain makes no difference. In
particular, the decimal digits of every word are read back as that word, with underscores anywhere
among them and blanks around. -/
theorem withOverrides_of_set (s : Settings) (hset : env x.name = some raw) :
    (∀ v, x.Writes raw v → ∃ s₁, s.put? x.key v = some s₁ ∧
      s.withOverrides env = s₁.withOverrides (env.without x)) ∧
    (∀ s', s.withOverrides env = .ok s' → ∀ v, s'.value x.key = v ↔ x.Writes raw v) ∧
    ((∀ v, ¬ x.Writes raw v) →
      (∀ y ∈ x.earlier, ∀ text, env y.name = some text → ∃ v, y.Writes text v) →
      ∃ fault, s.withOverrides env = .error ⟨[x.complaint raw], fault⟩) ∧
    ∀ n < Word.size, ∀ before digits after : List Char, (∀ c ∈ before, Text.isBlank c) →
      (∀ c ∈ after, Text.isBlank c) → digits.filter (· ≠ '_') = Nat.toDigits 10 n →
      x ≠ .memoize → raw = String.ofList (before ++ digits ++ after) →
      x.Writes raw (.number n) := by
  refine ⟨?_, ?_, ?_, ?_⟩
  · intro v hraw
    exact withOverrides_of_writes s hset hraw
  · intro s' h v
    exact value_eq_iff_writes hset h
  · intro hraw hearlier
    exact withOverrides_of_not_writes s hset hraw hearlier
  · rintro n hn before digits after hbefore hafter hdigits hx rfl
    exact Variable.writes_of_digits hx hn hbefore hafter hdigits

/-- One variable has a number, and a later one has a blank before its underscore. -/
def sampleVariables : Environment := fun name =>
  if name = "DYNSITE_OPTIMIZE_THRESHOLD" then some "\t+2__000_ "
  else if name = "DYNSITE_STABLE_WINDOW" then some "9 _"
  else none

theorem writes_sampleVariables :
    Variable.optimizeThreshold.Writes "\t+2__000_ " (.number 2000) :=
  .number (by decide) (readNumber_eq_ok_iff.mp rfl)

theorem not_writes_sampleVariables (v : Given) : ¬ Variable.stableWindow.Writes "9 _" v := by
  have hread : readNumber "9 _" = .error .invalidDigit := rfl
  rintro (_ | ⟨-, hraw⟩)
  rw [← readNumber_eq_ok_iff, hread] at hraw
  cases hraw

theorem sampleVariables_optimizeThreshold :
    sampleVariables Variable.optimizeThreshold.name = some "\t+2__000_ " := rfl

theorem sampleVariables_stableWindow :
    sampleVariables Variable.stableWindow.name = some "9 _" := rfl

/-- The first of them counts as the number that it writes, and the error names the other one. -/
theorem withOverrides_sampleVariables :
    Settings.default.withOverrides sampleVariables =
      (Settings.default.setNumber .optimizeThreshold 2000).withOverrides
        (sampleVariables.without .optimizeThreshold) ∧
    ∃ fault, Settings.default.withOverrides sampleVariables =
      .error ⟨["DYNSITE_STABLE_WINDOW=9 _ is not a valid number"], fault⟩ := by
  constructor
  · obtain ⟨s₁, hput, htaken⟩ := (withOverrides_of_set .default
      sampleVariables_optimizeThreshold).1 _ writes_sampleVariables
    obtain rfl : Settings.default.setNumber .optimizeThreshold 2000 = s₁ := Option.some.inj hput
    exact htaken
  · refine (withOverrides_of_set .default sampleVariables_stableWindow).2.2.1
      not_writes_sampleVariables fun y hy text htext => ?_
    by_cases hy' : y = .optimizeThreshold
    · subst hy'
      cases htext
      exact ⟨_, writes_sampleVariables⟩
    · have hunset : ∀ y ∈ Variable.stableWindow.earlier, y ≠ .optimizeThreshold →
          sampleVariables y.name = none := by decide
      rw [hunset y hy hy'] at htext
      cases htext

end

end Settings

end LateBinding
