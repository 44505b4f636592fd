import LateBinding.CommandLine.Execute

/-!
# Layers of settings

The settings in effect come from the defaults, a file, the environment and the command line. Each of
these gives some of the settings (`Settings.Layer`) and leaves the others to what is below it. They
are put on one after another, and what comes out is checked each time; so a layer that is not valid
is refused although one above it may make up for it (`CommandLine.effectiveSettings_eq_ok_iff`).
-/

namespace LateBinding

namespace Settings

variable {s s' : Settings} {k : Key} {v : Given}

/-! ## Settings by their names -/

/-- The value of a setting, in the way in which sources give it. -/
def value (s : Settings) : Key → Given
  | .cacheCapacity => .number s.cacheCapacity
  | .optimizeThreshold => .number s.optimizeThreshold
  | .fallbackThreshold => .number s.fallbackThreshold
  | .megamorphicMultiplier => .number s.megamorphicMultiplier
  | .stableWindow => .number s.stableWindow
  | .memoizeResolutions => .flag s.memoizeResolutions
  | .memoCapacity => .number s.memoCapacity

theorem value_setNumber (hk : k ≠ .memoizeResolutions) (n : Nat) (k' : Key) :
    (s.setNumber k n).value k' = if k' = k then .number n else s.value k' := by
  cases k <;> first | exact absurd rfl hk | cases k' <;> rfl

/-- Changing one setting leaves the others. -/
theorem value_put (h : s.put? k v = some s') (k' : Key) :
    s'.value k' = if k' = k then v else s.value k' := by
  unfold put? at h
  -- a setting takes a text of its own kind only, and then it takes the text's value
  split at h
  · cases h
    cases k' <;> rfl
  · cases h
  · next hk =>
    split at h
    · cases h
      exact value_setNumber hk ..
    · cases h
  · cases h

theorem Key.name_injective : Key.name.Injective := by
  intro k k' h
  cases k <;> cases k' <;> first | rfl | exact absurd h (by decide)

theorem Key.name_of_ofName? {name : String} (h : ofName? name = some k) : k.name = name := by
  simpa using List.find?_some h

/-! ## What a source gives -/

/-- The value that a source gives for a setting. -/
def Source.given? : Source → Key → Option Given
  | .named entries, k => entries.lookup k.name
  | .listed values, k => (Key.all.zip values).lookup k

theorem value_takeNamed {seen : List Key} {entries : List (String × Given)}
    (h : s.takeNamed seen entries = some s') : (∀ k ∈ seen, entries.lookup k.name = none) ∧
      ∀ k, s'.value k = (entries.lookup k.name).getD (s.value k) := by
  -- each entry names a setting not seen before, so the first entry for a setting is its only one
  induction entries generalizing s seen with
  | nil =>
    cases h
    exact ⟨fun _ _ => rfl, fun _ => rfl⟩
  | cons entry rest ih =>
    obtain ⟨name, v⟩ := entry
    rw [takeNamed] at h
    split at h
    · cases h
    · next k₀ hname =>
      obtain rfl := Key.name_of_ofName? hname
      split at h
      · cases h
      · next hnew =>
        split at h
        · cases h
        · next s₁ hput =>
          obtain ⟨hseen, hvalue⟩ := ih h
          have hother : ∀ k, k ≠ k₀ →
              ((k₀.name, v) :: rest).lookup k.name = rest.lookup k.name := fun k hk => by
            rw [List.lookup_cons, beq_false_of_ne (mt (@Key.name_injective _ _) hk)]
          refine ⟨fun k hk => ?_, fun k => ?_⟩
          · rw [hother k (ne_of_mem_of_not_mem hk hnew), hseen k (List.mem_cons_of_mem _ hk)]
          · rw [hvalue, value_put hput]
            -- nothing after the entry names the setting again
            by_cases hk : k = k₀
            · rw [if_pos hk, hk, hseen k₀ List.mem_cons_self, List.lookup_cons_self]
              rfl
            · rw [if_neg hk, hother k hk]

theorem value_takeListed {ks : List Key} {values : List Given} (hks : ks.Nodup)
    (h : s.takeListed ks values = some s') (k : Key) :
    s'.value k = ((ks.zip values).lookup k).getD (s.value k) := by
  -- values go to settings by place, and no setting has two places
  induction ks generalizing s values with
  | nil =>
    cases values with
    | nil =>
      cases h
      rfl
    | cons => cases h
  | cons k₀ ks ih =>
    obtain ⟨hnew, hks⟩ := List.nodup_cons.mp hks
    cases values with
    | nil =>
      cases h
      rfl
    | cons v values =>
      rw [takeListed] at h
      split at h
      · cases h
      · next s₁ hput =>
        rw [ih hks h, value_put hput, List.zip_cons_cons]
        by_cases hk : k = k₀
        · have hnone : (ks.zip values).lookup k₀ = none :=
            List.lookup_eq_none_iff.mpr fun p hp =>
              bne_iff_ne.mpr (ne_of_mem_of_not_mem (List.of_mem_zip hp).1 hnew).symm
          rw [if_pos hk, hk, hnone, List.lookup_cons_self]
          rfl
        · rw [if_neg hk, List.lookup_cons, beq_false_of_ne hk]

/-- A source that can be taken over is taken over for each setting that it gives. -/
theorem value_ofSource {source : Source} (h : ofSource? source = some s) (k : Key) :
    s.value k = (source.given? k).getD (Settings.default.value k) := by
  cases source with
  | named entries => exact (value_takeNamed h).2 k
  | listed values => exact value_takeListed (by decide) h k

/-! ## Layers -/

/-- Some of the settings. -/
structure Layer where
  cacheCapacity : Option Nat
  optimizeThreshold : Option Nat
  fallbackThreshold : Option Nat
  megamorphicMultiplier : Option Nat
  stableWindow : Option Nat
  memoizeResolutions : Option Bool
  memoCapacity : Option Nat
deriving DecidableEq

namespace Layer

variable {l l' : Layer}

def nothing : Layer := ⟨none, none, none, none, none, none, none⟩

/-- Settings with a layer on top. -/
def onto (l : Layer) (s : Settings) : Settings where
  cacheCapacity := l.cacheCapacity.getD s.cacheCapacity
  optimizeThreshold := l.optimizeThreshold.getD s.optimizeThreshold
  fallbackThreshold := l.fallbackThreshold.getD s.fallbackThreshold
  megamorphicMultiplier := l.megamorphicMultiplier.getD s.megamorphicMultiplier
  stableWindow := l.stableWindow.getD s.stableWindow
  memoizeResolutions := l.memoizeResolutions.getD s.memoizeResolutions
  memoCapacity := l.memoCapacity.getD s.memoCapacity

/-- A layer and one below it as one layer. -/
def above (l' l : Layer) : Layer where
  cacheCapacity := l'.cacheCapacity.or l.cacheCapacity
  optimizeThreshold := l'.optimizeThreshold.or l.optimizeThreshold
  fallbackThreshold := l'.fallbackThreshold.or l.fallbackThreshold
  megamorphicMultiplier := l'.megamorphicMultiplier.or l.megamorphicMultiplier
  stableWindow := l'.stableWindow.or l.stableWindow
  memoizeResolutions := l'.memoizeResolutions.or l.memoizeResolutions
  memoCapacity := l'.memoCapacity.or l.memoCapacity

@[simp] theorem nothing_onto (s : Settings) : nothing.onto s = s := rfl

theorem onto_onto (s : Settings) : l'.onto (l.onto s) = (l'.above l).onto s := by
  simp only [onto, above, Option.getD_or]

/-- Setting by setting, the layer counts and else what is below it. -/
theorem onto_eq_iff {s s' : Settings} : l.onto s = s' ↔
    s'.cacheCapacity = l.cacheCapacity.getD s.cacheCapacity ∧
    s'.optimizeThreshold = l.optimizeThreshold.getD s.optimizeThreshold ∧
    s'.fallbackThreshold = l.fallbackThreshold.getD s.fallbackThreshold ∧
    s'.megamorphicMultiplier = l.megamorphicMultiplier.getD s.megamorphicMultiplier ∧
    s'.stableWindow = l.stableWindow.getD s.stableWindow ∧
    s'.memoizeResolutions = l.memoizeResolutions.getD s.memoizeResolutions ∧
    s'.memoCapacity = l.memoCapacity.getD s.memoCapacity := by
  rw [eq_comm]
  cases s'
  simp only [onto, Settings.mk.injEq]

end Layer

/-! ## The layer of a source -/

def Given.number? : Given → Option Nat
  | .number n => some n
  | .flag _ | .other => none

def Given.flag? : Given → Option Bool
  | .flag b => some b
  | .number _ | .other => none

def Source.number? (source : Source) (k : Key) : Option Nat := (source.given? k).bind Given.number?

/-- All that a source gives. -/
def Source.layer (source : Source) : Layer where
  cacheCapacity := source.number? .cacheCapacity
  optimizeThreshold := source.number? .optimizeThreshold
  fallbackThreshold := source.number? .fallbackThreshold
  megamorphicMultiplier := source.number? .megamorphicMultiplier
  stableWindow := source.number? .stableWindow
  memoizeResolutions := (source.given? .memoizeResolutions).bind Given.flag?
  memoCapacity := source.number? .memoCapacity

/-- What is read of a value is the value that counts, if it can be read at all. -/
theorem Given.getD_bind {α : Type} (value : α → Given) (read : Given → Option α)
    (hread : ∀ a, read (value a) = some a) {given? : Option Given} {a otherwise : α}
    (h : value a = given?.getD (value otherwise)) : (given?.bind read).getD otherwise = a := by
  cases given? with
  | none =>
    -- reading undoes giving, so two values that are given alike are the same
    have hsame : read (value a) = read (value otherwise) := congrArg read h
    rw [hread, hread] at hsame
    exact (Option.some.inj hsame).symm
  | some v =>
    obtain rfl : value a = v := h
    rw [Option.bind_some, hread]
    rfl

/-- The settings of a source are its layer over the defaults. -/
theorem layer_onto_default {source : Source} (h : ofSource? source = some s) :
    source.layer.onto .default = s := by
  have hvalue := value_ofSource h
  have hnumber : ∀ {k : Key} {n m : Nat}, Given.number n = (source.given? k).getD (.number m) →
      (source.number? k).getD m = n := Given.getD_bind .number Given.number? fun _ => rfl
  have hflag : ∀ {given? : Option Given} {b c : Bool}, Given.flag b = given?.getD (.flag c) →
      (given?.bind Given.flag?).getD c = b := Given.getD_bind .flag Given.flag? fun _ => rfl
  rw [Layer.onto, Source.layer]
  simp only [hnumber (hvalue .cacheCapacity), hnumber (hvalue .optimizeThreshold),
    hnumber (hvalue .fallbackThreshold), hnumber (hvalue .megamorphicMultiplier),
    hnumber (hvalue .stableWindow), hflag (hvalue .memoizeResolutions),
    hnumber (hvalue .memoCapacity)]

/-- What a file gives that has a format. -/
def Format.source? : Format → String → Option Source
  | toml, text => (Toml.settings? (Text.lines (Text.dropMark text.toList))).map .named
  | yaml, text => (Yaml.Document.read? text.toList).bind Source.ofYaml?
  | json, text => (Json.read? text).bind Source.ofJson?

theorem Format.read?_eq (format : Format) (text : String) :
    format.read? text = (format.source? text).bind ofSource? := by
  -- reading a file is reading its entries and then taking them, in each of the formats
  cases format with
  | toml =>
    show ofToml? text = _
    rw [ofToml?, source?]
    split <;> simp only [*] <;> rfl
  | yaml =>
    show ofYaml? text = _
    rw [ofYaml?, source?]
    split <;> simp only [*] <;> rfl
  | json =>
    show ofJson? text = _
    rw [ofJson?, source?]
    split <;> simp only [*] <;> rfl

theorem checked_eq_ok_iff : s.checked = .ok s' ↔ s.validate = .ok () ∧ s = s' := by
  unfold checked
  split
  · next h => simp [h]
  · next h => simp [h]

/-! ## The layer of the environment -/

/-- The variables that are set can be read, and give the layer. -/
structure Environment.Gives (env : Environment) (l : Layer) : Prop where
  cacheCapacity :
    (env "DYNSITE_CALLSITE_CACHE_SIZE").map readNumber = l.cacheCapacity.map .ok
  optimizeThreshold :
    (env "DYNSITE_OPTIMIZE_THRESHOLD").map readNumber = l.optimizeThreshold.map .ok
  fallbackThreshold :
    (env "DYNSITE_FALLBACK_THRESHOLD").map readNumber = l.fallbackThreshold.map .ok
  megamorphicMultiplier :
    (env "DYNSITE_MEGAMORPHIC_MULTIPLIER").map readNumber = l.megamorphicMultiplier.map .ok
  stableWindow : (env "DYNSITE_STABLE_WINDOW").map readNumber = l.stableWindow.map .ok
  memoizeResolutions : (env "DYNSITE_MEMOIZE").map readFlag = l.memoizeResolutions.map .ok
  memoCapacity : l.memoCapacity = none

section

variable {env : Environment} {name : String}

/-- What is read of a variable, with something else if it is not set. -/
theorem exists_given_iff {ε α : Type} {raw? : Option String} {read : String → Except ε α}
    {otherwise a : α} :
    (∃ given : Option α, raw?.map read = given.map .ok ∧ given.getD otherwise = a) ↔
      raw?.elim (otherwise = a) fun raw => read raw = .ok a := by
  cases raw? with
  -- not set, nothing is given and the otherwise stays
  | none =>
    refine ⟨?_, fun h => ⟨none, rfl, h⟩⟩
    rintro ⟨_ | _, hread, rfl⟩
    · rfl
    · cases hread
  | some raw =>
    refine ⟨?_, fun h => ⟨some a, congrArg some h, rfl⟩⟩
    rintro ⟨_ | _, hread, rfl⟩
    · cases hread
    · exact Option.some.inj hread

theorem numberOf_eq_ok_iff {otherwise n : Nat} : numberOf env name otherwise = .ok n ↔
    ∃ given : Option Nat, (env name).map readNumber = given.map .ok ∧
      given.getD otherwise = n := by
  rw [exists_given_iff, numberOf]
  cases env name with
  | none => simp
  | some raw => cases hread : readNumber raw <;> simp [hread]

theorem flagOf_eq_ok_iff {otherwise b : Bool} : flagOf env name otherwise = .ok b ↔
    ∃ given : Option Bool, (env name).map readFlag = given.map .ok ∧
      given.getD otherwise = b := by
  rw [exists_given_iff, flagOf]
  cases env name with
  | none => simp
  | some raw => cases hread : readFlag raw <;> simp [hread]

theorem bind_eq_ok_iff {ε α γ : Type} {x : Except ε α} {f : α → Except ε γ} {c : γ} :
    x >>= f = .ok c ↔ ∃ a, x = .ok a ∧ f a = .ok c := by
  cases x with
  | error e => exact ⟨nofun, fun ⟨_, h, _⟩ => nomatch h⟩
  | ok a => exact ⟨fun h => ⟨a, rfl, h⟩, fun ⟨_, ha, h⟩ => Except.ok.inj ha ▸ h⟩

/-- Overriding puts the layer of the environment on top, if all of it can be read. -/
theorem overrideUnchecked_eq_ok_iff :
    s.overrideUnchecked env = .ok s' ↔ ∃ l, env.Gives l ∧ l.onto s = s' := by
  -- the six reads go one by one, and each gives its part of the layer or stops the whole
  simp only [overrideUnchecked, bind_eq_ok_iff, numberOf_eq_ok_iff, flagOf_eq_ok_iff]
  constructor
  · rintro ⟨_, ⟨cache, hcache, rfl⟩, _, ⟨optimize, hoptimize, rfl⟩, _, ⟨fallback, hfallback, rfl⟩,
      _, ⟨multiplier, hmultiplier, rfl⟩, _, ⟨window, hwindow, rfl⟩, _, ⟨memoize, hmemoize, rfl⟩, h⟩
    exact ⟨⟨cache, optimize, fallback, multiplier, window, memoize, none⟩,
      ⟨hcache, hoptimize, hfallback, hmultiplier, hwindow, hmemoize, rfl⟩, Except.ok.inj h⟩
  · rintro ⟨l, hl, rfl⟩
    refine ⟨_, ⟨_, hl.cacheCapacity, rfl⟩, _, ⟨_, hl.optimizeThreshold, rfl⟩, _,
      ⟨_, hl.fallbackThreshold, rfl⟩, _, ⟨_, hl.megamorphicMultiplier, rfl⟩, _,
      ⟨_, hl.stableWindow, rfl⟩, _, ⟨_, hl.memoizeResolutions, rfl⟩, ?_⟩
    rw [Layer.onto, hl.memoCapacity]
    rfl

/-- Then the settings are checked. -/
theorem withOverrides_eq_ok_iff_stages : s.withOverrides env = .ok s' ↔
    ∃ s₁, s.overrideUnchecked env = .ok s₁ ∧ s₁.checked = .ok s' := by
  unfold withOverrides
  cases s.overrideUnchecked env <;> simp

theorem withOverrides_eq_ok_iff : s.withOverrides env = .ok s' ↔
    ∃ l, env.Gives l ∧ (l.onto s).validate = .ok () ∧ l.onto s = s' := by
  simp only [withOverrides_eq_ok_iff_stages, overrideUnchecked_eq_ok_iff, checked_eq_ok_iff]
  constructor
  · rintro ⟨_, ⟨l, hl, rfl⟩, hvalid, heq⟩
    exact ⟨l, hl, hvalid, heq⟩
  · rintro ⟨l, hl, hvalid, heq⟩
    exact ⟨_, ⟨l, hl, rfl⟩, hvalid, heq⟩

end

end Settings

namespace CommandLine

open Settings (Layer)

variable {host : Host} {t : Tuning} {file : Layer} {s : Settings}

/-! ## The layers of a command -/

/-- What the options of the command line give. -/
def Tuning.layer (t : Tuning) : Layer where
  cacheCapacity := t.cacheSize
  optimizeThreshold := t.optimizeThreshold
  fallbackThreshold := t.fallbackThreshold
  megamorphicMultiplier := none
  stableWindow := none
  memoizeResolutions := none
  memoCapacity := none

theorem Tuning.apply_eq (t : Tuning) (s : Settings) : t.apply s = t.layer.onto s := rfl

/-- What the file gives that the command line names: nothing if it names none. The file can be
read, its format is known by its extension, and all that it gives can be taken over. -/
inductive FileGives (host : Host) (t : Tuning) : Layer → Prop
  | none (hconfig : t.config = none) : FileGives host t .nothing
  | file {path content : String} {format : Settings.Format} {source : Settings.Source}
    {s : Settings} (hconfig : t.config = some path) (hcontent : host.fileText path = .ok content)
    (hformat : Settings.Format.ofExtension? (Path.extension path) = some format)
    (hsource : format.source? content = some source)
    (htaken : Settings.ofSource? source = some s) : FileGives host t source.layer

/-- Below the environment, there are the defaults with the layer of the file, if they are valid. -/
theorem FileGives.baseSettings_eq (h : FileGives host t file) :
    baseSettings host t = (file.onto .default).checked := by
  unfold baseSettings
  -- without a file the layer is empty, and its settings are the defaults
  cases h with
  | none hconfig =>
    rw [hconfig, Layer.nothing_onto]
    rfl
  | file hconfig hcontent hformat hsource htaken =>
    rw [Settings.layer_onto_default htaken]
    simp only [hconfig, Settings.ofFile, hcontent, Settings.ofContent, hformat,
      Settings.Format.read?_eq, hsource, Option.bind_some, htaken]

/-! ## The settings in effect -/

/-- The three stages that settings go through. -/
theorem effectiveSettings_eq_ok_iff_stages : effectiveSettings host t = .ok s ↔
    ∃ s₁, baseSettings host t = .ok s₁ ∧
      ∃ s₂, s₁.withOverrides host.environment = .ok s₂ ∧ (t.apply s₂).checked = .ok s := by
  unfold effectiveSettings
  cases baseSettings host t with
  | error f => simp
  | ok s₁ => cases hover : s₁.withOverrides host.environment <;> simp [hover]

/-- If settings are in effect, the file gave a layer. -/
theorem exists_fileGives (h : effectiveSettings host t = .ok s) :
    ∃ file, FileGives host t file := by
  -- the stage of the file went through, so each of its steps did
  obtain ⟨s₁, hbase, -⟩ := effectiveSettings_eq_ok_iff_stages.mp h
  cases hconfig : t.config with
  | none => exact ⟨_, .none hconfig⟩
  | some path =>
    simp only [baseSettings, hconfig, Settings.ofFile] at hbase
    cases hcontent : host.fileText path with
    | error f => simp only [hcontent, reduceCtorEq] at hbase
    | ok content =>
      cases hformat : Settings.Format.ofExtension? (Path.extension path) with
      | none => simp only [hcontent, Settings.ofContent, hformat, reduceCtorEq] at hbase
      | some format =>
        simp only [hcontent, Settings.ofContent, hformat, Settings.Format.read?_eq] at hbase
        cases hsource : format.source? content with
        | none => simp only [hsource, Option.bind_none, reduceCtorEq] at hbase
        | some source =>
          cases htaken : Settings.ofSource? source with
          | none => simp only [hsource, Option.bind_some, htaken, reduceCtorEq] at hbase
          | some => exact ⟨_, .file hconfig hcontent hformat hsource htaken⟩

/-- If the file gives a layer, layers are put on one by one, with a check after each of them. -/
theorem FileGives.effectiveSettings_iff (hfile : FileGives host t file) :
    effectiveSettings host t = .ok s ↔ (file.onto .default).validate = .ok () ∧
      ∃ env, host.environment.Gives env ∧ (env.onto (file.onto .default)).validate = .ok () ∧
        s.validate = .ok () ∧ t.layer.onto (env.onto (file.onto .default)) = s := by
  simp only [effectiveSettings_eq_ok_iff_stages, hfile.baseSettings_eq,
    Settings.checked_eq_ok_iff, Settings.withOverrides_eq_ok_iff, Tuning.apply_eq]
  -- the middle settings are determined by the layers, so they can be left out
  constructor
  · rintro ⟨_, ⟨hfile, rfl⟩, _, ⟨env, henv, hvalid, rfl⟩, hvalid', rfl⟩
    exact ⟨hfile, env, henv, hvalid, hvalid', rfl⟩
  · rintro ⟨hfile, env, henv, hvalid, hvalid', rfl⟩
    exact ⟨_, ⟨hfile, rfl⟩, _, ⟨env, henv, hvalid, rfl⟩, hvalid', rfl⟩

/-- The settings in effect. Let the file give a layer, or let none be named. Then there are settings
in effect exactly if the layer of the file over the defaults is valid, all variables that are set
can be read, what they give on top of that is valid, and so are the settings in the end. Each of
these is what the layers give, the upper ones first: the options of the command line, which give
three of them, the environment, which gives all but one, the file and the defaults. -/
theorem effectiveSettings_eq_ok_iff (hfile : FileGives host t file) :
    effectiveSettings host t = .ok s ↔
      (file.onto .default).validate = .ok () ∧
      ∃ env, host.environment.Gives env ∧
        (env.onto (file.onto .default)).validate = .ok () ∧
        s.validate = .ok () ∧
        s.cacheCapacity = (t.cacheSize.or (env.cacheCapacity.or file.cacheCapacity)).getD
          Settings.default.cacheCapacity ∧
        s.optimizeThreshold = (t.optimizeThreshold.or
          (env.optimizeThreshold.or file.optimizeThreshold)).getD
            Settings.default.optimizeThreshold ∧
        s.fallbackThreshold = (t.fallbackThreshold.or
          (env.fallbackThreshold.or file.fallbackThreshold)).getD
            Settings.default.fallbackThreshold ∧
        s.megamorphicMultiplier = (env.megamorphicMultiplier.or file.megamorphicMultiplier).getD
          Settings.default.megamorphicMultiplier ∧
        s.stableWindow = (env.stableWindow.or file.stableWindow).getD
          Settings.default.stableWindow ∧
        s.memoizeResolutions = (env.memoizeResolutions.or file.memoizeResolutions).getD
          Settings.default.memoizeResolutions ∧
        s.memoCapacity = file.memoCapacity.getD Settings.default.memoCapacity := by
  rw [hfile.effectiveSettings_iff]
  refine and_congr_right fun _ => exists_congr fun env => and_congr_right fun henv =>
    and_congr_right fun _ => and_congr_right fun _ => ?_
  -- three layers on top of each other are one, and it counts setting by setting
  rw [Layer.onto_onto, Layer.onto_onto, Layer.onto_eq_iff]
  simp only [Layer.above, Tuning.layer, Option.none_or, Option.or_assoc, henv.memoCapacity]

/-- One variable is set. -/
def sampleEnvironment : Settings.Environment := fun name =>
  if name = "DYNSITE_OPTIMIZE_THRESHOLD" then some " 2_000 " else none

/-- There is one file. -/
def sampleHost (text : String) : Host where
  environment := sampleEnvironment
  fileText path := if path = "site.toml" then .ok text else .error .missing

/-- The options name that file, and give the room of sites. -/
def sampleTuning : Tuning := ⟨some "site.toml", none, none, some 16⟩

theorem gives_sampleEnvironment :
    sampleEnvironment.Gives { Layer.nothing with optimizeThreshold := some 2000 } :=
  ⟨rfl, rfl, rfl, rfl, rfl, rfl, rfl⟩

theorem fileGives_sampleHost {text : String} {source : Settings.Source} {s : Settings}
    (hsource : Settings.Format.toml.source? text = some source)
    (htaken : Settings.ofSource? source = some s) :
    FileGives (sampleHost text) sampleTuning source.layer :=
  .file rfl rfl (by decide +kernel) hsource htaken

/-- One setting is that of the command line, one that of the environment, one that of the file, and
the others are the defaults. A file that leaves no room is refused, although the command line gives
room. -/
theorem effectiveSettings_sampleHost :
    effectiveSettings (sampleHost "cache_capacity = 8\noptimize_threshold = 50\nmemo_capacity = 9")
      sampleTuning = .ok ⟨16, 2000, 8, 4, 1000, true, 9⟩ ∧
    ∀ s, effectiveSettings (sampleHost "cache_capacity = 0") sampleTuning ≠ .ok s := by
  constructor
  · have hsource : Settings.Format.toml.source?
        "cache_capacity = 8\noptimize_threshold = 50\nmemo_capacity = 9" =
          some (.named [("cache_capacity", .number 8), ("optimize_threshold", .number 50),
            ("memo_capacity", .number 9)]) := rfl
    exact (effectiveSettings_eq_ok_iff (fileGives_sampleHost hsource rfl)).mpr
      ⟨rfl, _, gives_sampleEnvironment, rfl, rfl, by decide⟩
  · have hsource : Settings.Format.toml.source? "cache_capacity = 0" =
        some (.named [("cache_capacity", .number 0)]) := rfl
    intro s hs
    obtain ⟨hvalid, -⟩ :=
      (effectiveSettings_eq_ok_iff (fileGives_sampleHost hsource rfl)).mp hs
    cases hvalid

end CommandLine

end LateBinding
