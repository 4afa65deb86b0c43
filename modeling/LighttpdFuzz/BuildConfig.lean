import LighttpdFuzz.BuildChecks
import Mathlib.Data.List.Forall2
import Mathlib.Data.List.Induction

/-!
# The config of the build checker

`load_config` turns the sections of an INI file into base modes, path
overrides and paths; `effective_modes` applies the overrides to one
checked item. `get_effectiveModes` says what comes out: the mode of the
last section in force that mentions the check.

The INI parser itself is the standard library's; its result is an
`IniFile`. Glob matching (`fnmatch.fnmatchcase`) is a parameter.
-/

namespace LighttpdFuzz

/-- A parsed INI file: its sections in file order, each with its options
in order. -/
structure IniFile where
  /-- `config.defaults()` is not empty. -/
  hasDefaults : Bool
  sections : AssocMap Text (AssocMap Text Text)

/-- `config.get(section, option, fallback=...)` -/
def IniFile.get (config : IniFile) (sectionName option fallback : Text) : Text :=
  match config.sections.get sectionName with
  | none => fallback
  | some options => (options.get option).getD fallback

/-- What `load_config` returns; the paths are still relative to the
config's directory. -/
structure BuildConfig where
  objects : List Text
  binaries : List Text
  excludes : List Text
  modes : AssocMap Text PolicyMode
  overrides : List (Text × AssocMap Text PolicyMode)
  report : Text

/-- `lines(value)` -/
def configLines (value : Text) : List Text :=
  (value.splitlines.map Text.strip).filter (· ≠ [])

def checksSection : Text := "checks".toList

def overridePrefix : Text := "checks:".toList

/-- `section.startswith("checks:")` -/
def isOverride (sectionName : Text) : Bool := decide (overridePrefix <+: sectionName)

/-- The path pattern of an override section. -/
def overridePattern (sectionName : Text) : Text :=
  Text.strip (sectionName.drop overridePrefix.length)

/-- The options a section may have, if it is one the checker knows. -/
def allowedOptions (sectionName : Text) : Option (List Text) :=
  if sectionName = "scan".toList then
    some ["object_dirs".toList, "binary_paths".toList, "exclude".toList]
  else if sectionName = checksSection then some (Check.all.map Check.name)
  else if sectionName = "output".toList then some ["report".toList]
  else none

/-- The section and option names of the file are all known. -/
def checkOptions (sectionName : Text) (options : List Text) (allowed : List Text) :
    Except Text Unit :=
  match options.find? fun option => !allowed.contains option with
  | some option =>
      .error ("unknown config option: [".toList ++ sectionName ++ "] ".toList ++ option)
  | none => .ok ()

def checkSection (sectionName : Text) (options : List Text) : Except Text Unit :=
  if isOverride sectionName then
    if overridePattern sectionName = [] then
      .error "[checks:PATH_GLOB] requires a nonempty path pattern".toList
    else checkOptions sectionName options (Check.all.map Check.name)
  else
    match allowedOptions sectionName with
    | some allowed => checkOptions sectionName options allowed
    | none => .error ("unknown config section: [".toList ++ sectionName ++ "]".toList)

def checkSections : List (Text × AssocMap Text Text) → Except Text Unit
  | [] => .ok ()
  | (sectionName, options) :: rest =>
      match checkSection sectionName options.keys with
      | .error e => .error e
      | .ok () => checkSections rest

/-- The mode a value spells, with the legacy spellings. -/
def modeOfValue (value : Text) : Option PolicyMode :=
  let value := value.strip
  if value = "require".toList ∨ value = "present".toList then some .present
  else if value = "forbid".toList ∨ value = "absent".toList then some .absent
  else if value = "report".toList ∨ value = "ignore".toList then some .ignore
  else none

section Load

variable (printable : Char → Bool)

/-- The value as the error text shows it, after the legacy mapping. -/
def invalidMode (check value : Text) : Text :=
  "invalid mode for ".toList ++ check ++ ": ".toList ++ Text.repr printable value.strip
    ++ "; use absent, ignore, present".toList

/-- `section_modes`, from the options of one section. The base section
leaves out what it ignores. -/
def sectionModes (base : Bool) :
    List (Text × Text) → AssocMap Text PolicyMode → Except Text (AssocMap Text PolicyMode)
  | [], modes => .ok modes
  | (check, value) :: rest, modes =>
      match modeOfValue value with
      | none => .error (invalidMode printable check value)
      | some mode =>
          sectionModes base rest
            (if mode ≠ .ignore ∨ base = false then modes.set check mode else modes)

/-- The base modes and the overrides, in file order. -/
def collectModes : List (Text × AssocMap Text Text) → AssocMap Text PolicyMode →
    List (Text × AssocMap Text PolicyMode) →
    Except Text (AssocMap Text PolicyMode × List (Text × AssocMap Text PolicyMode))
  | [], modes, overrides => .ok (modes, overrides)
  | (sectionName, options) :: rest, modes, overrides =>
      if sectionName = checksSection then
        match sectionModes printable true options.entries .empty with
        | .error e => .error e
        | .ok changes => collectModes rest changes overrides
      else if isOverride sectionName then
        match sectionModes printable false options.entries .empty with
        | .error e => .error e
        | .ok changes =>
            collectModes rest modes (overrides ++ [(overridePattern sectionName, changes)])
      else collectModes rest modes overrides

/-- `load_config(path)`, on the parsed file; `printable` is `str.isprintable`. -/
def loadConfig (config : IniFile) : Except Text BuildConfig :=
  if config.hasDefaults then .error "[DEFAULT] is not supported".toList
  else
    match checkSections config.sections.entries with
    | .error e => .error e
    | .ok () =>
        let objects := configLines (config.get "scan".toList "object_dirs".toList [])
        let binaries := configLines (config.get "scan".toList "binary_paths".toList [])
        if objects = [] ∧ binaries = [] then
          .error "configure at least one object_dirs or binary_paths entry".toList
        else
          match collectModes printable config.sections.entries .empty [] with
          | .error e => .error e
          | .ok (modes, overrides) =>
              let report :=
                (config.get "output".toList "report".toList "build-report.md".toList).strip
              if report = [] then .error "[output] report must not be empty".toList
              else
                .ok
                  { objects, binaries, modes, overrides, report
                    excludes := configLines (config.get "scan".toList "exclude".toList []) }

end Load

/-! ## Effective modes -/

section Effective

variable (fnmatchcase : Text → Text → Bool)

/-- `f"{name}({member})"` -/
def memberName (name member : Text) : Text :=
  name ++ '(' :: (member ++ [')'])

/-- Whether a path pattern applies to a file or to one of its members. -/
def applies (pattern name member : Text) : Bool :=
  fnmatchcase name pattern || (member ≠ [] && fnmatchcase (memberName name member) pattern)

/-- `effective_modes(name, member, modes, overrides)` -/
def effectiveModes (name member : Text) (modes : AssocMap Text PolicyMode)
    (overrides : List (Text × AssocMap Text PolicyMode)) : AssocMap Text PolicyMode :=
  overrides.foldl
    (fun effective change =>
      if applies fnmatchcase change.1 name member then effective.update change.2 else effective)
    modes

/-- `item_modes.get(check, "ignore")` -/
def modeFor (itemModes : AssocMap Text PolicyMode) (check : Check) : PolicyMode :=
  (itemModes.get check.name).getD .ignore

/-! ## The mode a config gives a check -/

/-- The mode that a section's options mention for a check. -/
def mentions (options : AssocMap Text Text) (check : Check) : Option PolicyMode :=
  (options.get check.name).bind modeOfValue

/-- The `[checks:PATTERN]` sections in force for an item, in file order. -/
def overridesInForce (config : IniFile) (name member : Text) :
    List (AssocMap Text Text) :=
  (config.sections.entries.filter fun entry =>
    isOverride entry.1 && applies fnmatchcase (overridePattern entry.1) name member).map Prod.snd

/-- The sections in force for an item: the base section first. -/
def sectionsInForce (config : IniFile) (name member : Text) : List (AssocMap Text Text) :=
  (config.sections.get checksSection).toList ++ overridesInForce fnmatchcase config name member

/-- The mode of the last section in force that mentions the check. -/
def givenMode (config : IniFile) (name member : Text) (check : Check) : PolicyMode :=
  ((sectionsInForce fnmatchcase config name member).filterMap
    (mentions · check)).getLast?.getD .ignore

/-! ## The config is applied as it is written -/

variable {fnmatchcase}

/-- The entry of a section's modes for a check, or for any other key. -/
def declared (base : Bool) (options : List (Text × Text)) (key : Text) : Option PolicyMode :=
  ((AssocMap.find key options).bind modeOfValue).filter fun mode => mode ≠ .ignore ∨ base = false

theorem get_sectionModes {printable : Char → Bool} {base : Bool} : ∀ {options : List (Text × Text)}
    {modes result : AssocMap Text PolicyMode}, (options.map Prod.fst).Nodup →
      sectionModes printable base options modes = .ok result →
      ∀ key, result.get key = (declared base options key).or (modes.get key)
  | [], modes, result, _, h, key => by
      cases h
      rfl
  | (check, value) :: rest, modes, result, hnodup, h, key => by
      rw [List.map_cons, List.nodup_cons] at hnodup
      unfold sectionModes at h
      rw [declared, AssocMap.find_cons]
      split at h
      · cases h
      · next mode hmode =>
          rw [get_sectionModes hnodup.2 h key]
          rcases eq_or_ne key check with rfl | hkey
          · have hrest : declared base rest key = none := by
              rw [declared, AssocMap.find_eq_none_iff.mpr hnodup.1]
              rfl
            rw [if_pos rfl, hrest, Option.bind_some, hmode]
            rw [Option.filter_some]
            split
            · next hkept =>
                rw [if_pos (decide_eq_true hkept), AssocMap.get_set_self]
                rfl
            · next hdropped =>
                rw [decide_eq_false hdropped]
                rfl
          · rw [if_neg hkey, declared]
            congr 1
            split
            · exact AssocMap.get_set_of_ne modes hkey mode
            · rfl

theorem declared_false (options : AssocMap Text Text) (check : Check) :
    declared false options.entries check.name = mentions options check := by
  rw [declared, mentions, AssocMap.get]
  cases (AssocMap.find check.name options.entries).bind modeOfValue <;> simp

/-- What an override section turns into. -/
def OverrideOf (entry : Text × AssocMap Text Text) (change : Text × AssocMap Text PolicyMode) :
    Prop :=
  change.1 = overridePattern entry.1 ∧ ∀ check, change.2.get (Check.name check)
    = mentions entry.2 check

theorem not_isOverride_checksSection : isOverride checksSection = false := by decide

theorem collectModes_spec {printable : Char → Bool} :
    ∀ {sections : List (Text × AssocMap Text Text)} {modes modes' : AssocMap Text PolicyMode}
    {overrides overrides' : List (Text × AssocMap Text PolicyMode)},
    (sections.map Prod.fst).Nodup →
      collectModes printable sections modes overrides = .ok (modes', overrides') →
      (∀ check : Check, modes'.get check.name = match AssocMap.find checksSection sections with
        | some options => declared true options.entries check.name
        | none => modes.get check.name)
      ∧ ∃ added, overrides' = overrides ++ added
        ∧ List.Forall₂ OverrideOf (sections.filter fun entry => isOverride entry.1) added
  | [], modes, modes', overrides, overrides', _, h => by
      cases h
      exact ⟨fun _ => rfl, [], (List.append_nil _).symm, .nil⟩
  | (sectionName, options) :: rest, modes, modes', overrides, overrides', hnodup, h => by
      rw [List.map_cons, List.nodup_cons] at hnodup
      unfold collectModes at h
      rw [AssocMap.find_cons]
      rcases eq_or_ne sectionName checksSection with rfl | hbase
      · rw [if_pos rfl] at h
        rw [if_pos rfl, List.filter_cons_of_neg (by simp [not_isOverride_checksSection])]
        split at h
        · cases h
        · next changes hchanges =>
            obtain ⟨hmodes, hoverrides⟩ := collectModes_spec hnodup.2 h
            refine ⟨fun check => ?_, hoverrides⟩
            rw [hmodes, AssocMap.find_eq_none_iff.mpr hnodup.1]
            simp only [get_sectionModes options.nodup hchanges, AssocMap.get_empty, Option.or_none]
      · rw [if_neg hbase] at h
        rw [if_neg (Ne.symm hbase)]
        cases hoverride : isOverride sectionName with
        | false =>
            rw [hoverride] at h
            rw [List.filter_cons_of_neg (by simp [hoverride])]
            exact collectModes_spec hnodup.2 h
        | true =>
            rw [hoverride, if_pos rfl] at h
            rw [List.filter_cons, if_pos hoverride]
            split at h
            · cases h
            · next changes hchanges =>
                obtain ⟨hmodes, added, rfl, hadded⟩ := collectModes_spec hnodup.2 h
                refine ⟨hmodes, (overridePattern sectionName, changes) :: added, by simp,
                  .cons ⟨rfl, fun check => ?_⟩ hadded⟩
                rw [get_sectionModes options.nodup hchanges, AssocMap.get_empty, Option.or_none,
                  declared_false]

/-- Later overrides win, and an override that applies wins over the base. -/
theorem get_effectiveModes (name member key : Text)
    (overrides : List (Text × AssocMap Text PolicyMode)) (modes : AssocMap Text PolicyMode) :
    (effectiveModes fnmatchcase name member modes overrides).get key
      = (((overrides.filter fun change => applies fnmatchcase change.1 name member).filterMap
          fun change => change.2.get key).getLast?).or (modes.get key) := by
  induction overrides using List.reverseRecOn with
  | nil => rfl
  | append_singleton overrides change ih =>
      have hstep : effectiveModes fnmatchcase name member modes (overrides ++ [change])
          = if applies fnmatchcase change.1 name member then
              (effectiveModes fnmatchcase name member modes overrides).update change.2
            else effectiveModes fnmatchcase name member modes overrides := by
        rw [effectiveModes, List.foldl_append]
        rfl
      rw [hstep, List.filter_append]
      cases happlies : applies fnmatchcase change.1 name member with
      | false => simp [happlies, ih]
      | true =>
          have hsingle : [change].filter (fun change => applies fnmatchcase change.1 name member)
              = [change] := by simp [happlies]
          rw [if_pos rfl, AssocMap.get_update, ih, List.filterMap_append, hsingle]
          cases hchange : change.2.get key <;> simp [hchange]

/-- Two lists of overrides that correspond mention the same modes. -/
theorem filterMap_overrides {name member : Text} {check : Check}
    {entries : List (Text × AssocMap Text Text)}
    {added : List (Text × AssocMap Text PolicyMode)}
    (h : List.Forall₂ OverrideOf entries added) :
    (added.filter fun change => applies fnmatchcase change.1 name member).filterMap
        (fun change => change.2.get check.name)
      = (entries.filter fun entry => applies fnmatchcase (overridePattern entry.1) name
          member).filterMap fun entry => mentions entry.2 check := by
  induction h with
  | nil => rfl
  | @cons entry change entries added hentry _ ih =>
      rw [List.filter_cons, List.filter_cons, hentry.1]
      split
      · rw [List.filterMap_cons, List.filterMap_cons, hentry.2 check, ih]
      · exact ih

/-- The mode used for an item is the one the config gives it. -/
theorem modeFor_effectiveModes {printable : Char → Bool} {config : IniFile} {cfg : BuildConfig}
    (h : loadConfig printable config = .ok cfg) (name member : Text) (check : Check) :
    modeFor (effectiveModes fnmatchcase name member cfg.modes cfg.overrides) check
      = givenMode fnmatchcase config name member check := by
  obtain ⟨hmodes, hoverrides⟩ : (∀ check : Check, cfg.modes.get check.name =
      match AssocMap.find checksSection config.sections.entries with
      | some options => declared true options.entries check.name
      | none => none)
      ∧ List.Forall₂ OverrideOf
        (config.sections.entries.filter fun entry => isOverride entry.1) cfg.overrides := by
    unfold loadConfig at h
    split at h
    · cases h
    · split at h
      · cases h
      · simp only at h
        split at h
        · cases h
        · split at h
          · cases h
          · next modes overrides hcollect =>
              split at h
              · cases h
              · cases h
                obtain ⟨hmodes, added, hadded, hforall⟩ :=
                  collectModes_spec config.sections.nodup hcollect
                rw [List.nil_append] at hadded
                subst hadded
                exact ⟨hmodes, hforall⟩
  rw [modeFor, get_effectiveModes, filterMap_overrides hoverrides, hmodes, givenMode,
    sectionsInForce, List.filterMap_append, overridesInForce, List.filterMap_map,
    List.filter_filter, List.getLast?_append]
  have horder : (fun entry : Text × AssocMap Text Text =>
      applies fnmatchcase (overridePattern entry.1) name member && isOverride entry.1)
      = fun entry => isOverride entry.1 && applies fnmatchcase (overridePattern entry.1) name
        member := funext fun entry => Bool.and_comm _ _
  rw [horder]
  generalize config.sections.entries.filter _ = entries
  change ((List.filterMap (fun entry => mentions entry.2 check) entries).getLast?.or _).getD _
    = ((List.filterMap (fun entry => mentions entry.2 check) entries).getLast?.or _).getD _
  cases (List.filterMap (fun entry => mentions entry.2 check) entries).getLast? with
  | some mode => rfl
  | none =>
      -- the base section drops what it ignores, which is what an absent entry means
      rw [Option.none_or, Option.none_or, AssocMap.get]
      cases AssocMap.find checksSection config.sections.entries with
      | none => rfl
      | some options =>
          simp only [declared, mentions, AssocMap.get, Option.toList_some, List.filterMap_cons,
            List.filterMap_nil]
          cases (AssocMap.find check.name options.entries).bind modeOfValue with
          | none => rfl
          | some mode => cases mode <;> rfl

end Effective

end LighttpdFuzz
