import LighttpdFuzz.PyText
import LighttpdFuzz.Regex
import Mathlib.Data.List.Sort
import Mathlib.Data.Set.List

/-!
# The discovery of the configurations

`discover_configs` is the same in `run.sh` and `build.sh`. It takes the file
names that the glob has found, reads a number out of each, sorts the numbers
and counts along them. A name that is accepted is the canonical name of its
number (`templateId_eq_some_iff`), so the list of numbers is the list of
names (`templateName_of_collectIds`), and the counting loop accepts exactly
the lists that count from 1 (`checkContiguous_ok_iff`).

The ranges of the patterns are those of the C locale.
-/

namespace LighttpdFuzz

/-- `PORT_BASE` -/
def portBase : Nat := 7600

/-! ## The scripts -/

def templatePrefix : Text := "config-".toList

def templateSuffix : Text := ".conf.in".toList

def isLeadingDigit (c : Char) : Bool := '1' ≤ c && c ≤ '9'

/-- `[1-9][0-9]{0,4}` -/
def idPattern : Regex := .seq (.char isLeadingDigit) (.many Char.isDigit 0 (some 4))

/-- `config-([1-9][0-9]{0,4})\.conf\.in` -/
def templatePattern : Regex :=
  .seq (.literal templatePrefix) (.seq (.group 1 idPattern) (.literal templateSuffix))

/-- `${BASH_REMATCH[1]}` after the pattern, anchored at both ends, has been
matched with the name. -/
def templateId (filename : Text) : Option Text :=
  ((templatePattern.allMatches none filename).find? fun m => m.rest.isEmpty).bind (·.group 1)

/-- The loop over the templates. An error is what is echoed. -/
def collectIds : List Text → List Nat → Except (List Text) (List Nat)
  | [], configIds => .ok configIds
  | filename :: filenames, configIds =>
      match templateId filename with
      | none =>
          .error ["Invalid configuration template name: ".toList ++ filename,
            "Use canonical names such as config-1.conf.in.".toList]
      | some configId =>
          let configNumber := Nat.ofDigitChars 10 configId 0
          if configNumber > 65535 - portBase then
            .error ["Configuration ".toList ++ configId
              ++ " cannot use a TCP port above 65535.".toList]
          else collectIds filenames (configIds ++ [configNumber])

/-- The counting loop. -/
def checkContiguous : Nat → List Nat → Except (List Text) Unit
  | _, [] => .ok ()
  | expected, configId :: configIds =>
      if configId ≠ expected then
        .error ["Configuration IDs must be contiguous from 1; expected ".toList
          ++ Text.ofNat expected ++ ", found ".toList ++ Text.ofNat configId ++ ".".toList]
      else checkContiguous (expected + 1) configIds

/-- `discover_configs`, with the names of the templates. Returns `CONFIG_IDS`. -/
def discoverConfigs (directory : Text) (filenames : List Text) :
    Except (List Text) (List Nat) :=
  if filenames = [] then
    .error ["No numeric configuration templates found in ".toList ++ directory
      ++ "/configs.".toList]
  else do
    let found ← collectIds filenames []
    let configIds := found.insertionSort (· ≤ ·)
    checkContiguous 1 configIds
    return configIds

/-- `valid_config` -/
def validConfig (configIds : List Nat) (requested : Text) : Bool :=
  if requested = [] ∨ requested.any (fun c => !c.isDigit) then false
  else configIds.any fun configId => requested = Text.ofNat configId

/-! ## Names -/

/-- The name of the template of a configuration. -/
def templateName (configNumber : Nat) : Text :=
  templatePrefix ++ Text.ofNat configNumber ++ templateSuffix

theorem templateName_injective : Function.Injective templateName := fun _ _ h =>
  Text.ofNat_injective (List.append_cancel_left (List.append_cancel_right h))

/-- What the group of the pattern takes. -/
def IsId (id : Text) : Prop :=
  ∃ c digits, id = c :: digits ∧ isLeadingDigit c = true ∧ (∀ c ∈ digits, c.isDigit = true)
    ∧ digits.length ≤ 4

theorem mem_idPattern {prev : Option Char} {t taken rest : Text} {groups : List (Nat × Text)} :
    ⟨taken, rest, groups⟩ ∈ idPattern.allMatches prev t
      ↔ IsId taken ∧ t = taken ++ rest ∧ groups = [] := by
  rw [idPattern, Regex.mem_seq_char]
  constructor
  · rintro ⟨c, digits, _, hc, rfl, rfl, hmany⟩
    obtain ⟨hmany, hlen⟩ := Regex.mem_many_bounded.mp hmany
    obtain ⟨rfl, hdigits, -, rfl⟩ := Regex.mem_many.mp hmany
    exact ⟨⟨c, digits, rfl, hc, hdigits, hlen⟩, rfl, rfl⟩
  · rintro ⟨⟨c, digits, rfl, hc, hdigits, hlen⟩, rfl, rfl⟩
    refine ⟨c, digits, digits ++ rest, hc, rfl, rfl, Regex.mem_many_bounded.mpr ⟨?_, hlen⟩⟩
    exact Regex.mem_many.mpr ⟨rfl, hdigits, Nat.zero_le _, rfl⟩

theorem mem_templatePattern {filename taken : Text} {groups : List (Nat × Text)} :
    ⟨taken, [], groups⟩ ∈ templatePattern.allMatches none filename ↔
      ∃ id, IsId id ∧ filename = templatePrefix ++ (id ++ templateSuffix) ∧ taken = filename
        ∧ groups = [(1, id)] := by
  rw [templatePattern, Regex.mem_seq_literal]
  simp only [Regex.mem_seq, Regex.mem_group, mem_idPattern, Regex.mem_literal, List.append_nil]
  constructor
  · rintro ⟨_, _, rfl, rfl, id, _, _, _, _, ⟨_, ⟨hid, rfl, rfl⟩, rfl⟩, ⟨rfl, rfl, rfl⟩, rfl, rfl⟩
    exact ⟨id, hid, rfl, rfl, rfl⟩
  · rintro ⟨id, hid, rfl, rfl, rfl⟩
    exact ⟨_, _, rfl, rfl, id, _, _, _, _, ⟨[], ⟨hid, rfl, rfl⟩, rfl⟩, ⟨rfl, rfl, rfl⟩, rfl, rfl⟩

theorem templateId_eq_some {filename id : Text} :
    templateId filename = some id ↔
      IsId id ∧ filename = templatePrefix ++ (id ++ templateSuffix) := by
  rw [templateId, Option.bind_eq_some_iff]
  constructor
  · rintro ⟨⟨taken, rest, groups⟩, hfind, hgroup⟩
    have hrest := List.find?_some hfind
    obtain rfl : rest = [] := List.isEmpty_iff.mp hrest
    obtain ⟨id', hid, hname, -, rfl⟩ := mem_templatePattern.mp (List.mem_of_find?_eq_some hfind)
    obtain rfl : id' = id := Option.some.inj hgroup
    exact ⟨hid, hname⟩
  · rintro ⟨hid, hname⟩
    have hmem := mem_templatePattern.mpr ⟨id, hid, hname, rfl, rfl⟩
    cases hfind : (templatePattern.allMatches none filename).find? fun m => m.rest.isEmpty with
    | none => exact absurd rfl (List.find?_eq_none.mp hfind _ hmem)
    | some m =>
        obtain ⟨taken, rest, groups⟩ := m
        have hrest := List.find?_some hfind
        obtain rfl : rest = [] := List.isEmpty_iff.mp hrest
        obtain ⟨id', -, hname', -, rfl⟩ :=
          mem_templatePattern.mp (List.mem_of_find?_eq_some hfind)
        have hsame := List.append_cancel_left (hname.symm.trans hname')
        obtain rfl := List.append_cancel_right hsame
        exact ⟨_, rfl, rfl⟩

theorem isLeadingDigit_iff {c : Char} :
    isLeadingDigit c = true ↔ c.isDigit = true ∧ c ≠ '0' := by
  have hle : isLeadingDigit c = true ↔ 49 ≤ c.toNat ∧ c.toNat ≤ 57 := by
    rw [isLeadingDigit, Bool.and_eq_true, decide_eq_true_eq, decide_eq_true_eq, Char.le_def,
      Char.le_def, UInt32.le_iff_toNat_le, UInt32.le_iff_toNat_le]
    rfl
  have hdigit : c.isDigit = true ↔ 48 ≤ c.toNat ∧ c.toNat ≤ 57 := Char.isDigit_iff_toNat
  have hzero : c ≠ '0' ↔ c.toNat ≠ 48 := not_congr Char.toNat_inj.symm
  rw [hle, hdigit, hzero]
  omega

/-- The group takes the canonical numerals of one to five digits. -/
theorem isId_iff {id : Text} : IsId id ↔ ∃ k, 1 ≤ k ∧ k < 100000 ∧ id = Text.ofNat k := by
  constructor
  · rintro ⟨c, digits, rfl, hc, hdigits, hlen⟩
    obtain ⟨hdigit, hzero⟩ := isLeadingDigit_iff.mp hc
    have hback : Text.ofNat (Nat.ofDigitChars 10 (c :: digits) 0) = c :: digits :=
      Text.ofNat_ofDigitChars (List.cons_ne_nil c digits) (fun h => hzero (Option.some.inj h))
        (List.forall_mem_cons.mpr ⟨hdigit, hdigits⟩)
    refine ⟨_, Nat.pos_of_ne_zero fun hvalue => ?_, ?_, hback.symm⟩
    · rw [hvalue] at hback
      exact hzero (List.cons.inj hback).1.symm
    · refine (Nat.length_toDigits_le_iff (by decide : 1 < 10) (by decide : 0 < 5)).mp ?_
      rw [← Text.ofNat, hback, List.length_cons]
      omega
  · rintro ⟨k, hpos, hlt, rfl⟩
    have hlen : (Text.ofNat k).length ≤ 5 :=
      (Nat.length_toDigits_le_iff (by decide : 1 < 10) (by decide : 0 < 5)).mpr hlt
    have hdigits : ∀ c ∈ Text.ofNat k, c.isDigit = true := fun _ => Text.isDigit_ofNat
    have hhead := Text.head?_ofNat hpos
    cases hk : Text.ofNat k with
    | nil => exact absurd hk Nat.toDigits_ne_nil
    | cons c digits =>
        rw [hk] at hlen hdigits hhead
        obtain ⟨hdigit, hdigits⟩ := List.forall_mem_cons.mp hdigits
        have hzero : c ≠ '0' := fun h => hhead (congrArg some h)
        exact ⟨c, digits, rfl, isLeadingDigit_iff.mpr ⟨hdigit, hzero⟩, hdigits,
          Nat.le_of_succ_le_succ hlen⟩

/-- A name is accepted if it is the canonical name of a number. -/
theorem templateId_eq_some_iff {filename id : Text} :
    templateId filename = some id ↔
      ∃ k, 1 ≤ k ∧ k < 100000 ∧ id = Text.ofNat k ∧ filename = templateName k := by
  rw [templateId_eq_some, isId_iff]
  constructor
  · rintro ⟨⟨k, hpos, hlt, rfl⟩, rfl⟩
    exact ⟨k, hpos, hlt, rfl, (List.append_assoc _ _ _).symm⟩
  · rintro ⟨k, hpos, hlt, rfl, rfl⟩
    exact ⟨⟨k, hpos, hlt, rfl⟩, List.append_assoc _ _ _⟩

/-! ## The loops -/

theorem collectIds_templateName : ∀ {numbers : List Nat} (configIds : List Nat),
    (∀ k ∈ numbers, 1 ≤ k ∧ k ≤ 65535 - portBase) →
    collectIds (numbers.map templateName) configIds = .ok (configIds ++ numbers)
  | [], configIds, _ => by rw [List.map_nil, collectIds, List.append_nil]
  | k :: numbers, configIds, h => by
      obtain ⟨⟨hpos, hle⟩, hrest⟩ := List.forall_mem_cons.mp h
      have hk : k < 100000 := by
        unfold portBase at hle
        omega
      have hvalue : Nat.ofDigitChars 10 (Text.ofNat k) 0 = k := Nat.ofDigitChars_ten_toDigits
      rw [List.map_cons, collectIds, templateId_eq_some_iff.mpr ⟨k, hpos, hk, rfl, rfl⟩]
      dsimp only
      rw [hvalue, if_neg (Nat.not_lt.mpr hle), collectIds_templateName _ hrest,
        ← List.append_cons]

theorem templateName_of_collectIds {filenames : List Text} {configIds result : List Nat}
    (h : collectIds filenames configIds = .ok result) :
    ∃ numbers : List Nat, filenames = numbers.map templateName
      ∧ (∀ k ∈ numbers, 1 ≤ k ∧ k ≤ 65535 - portBase) ∧ result = configIds ++ numbers := by
  fun_induction collectIds filenames configIds with
  | case1 configIds =>
      exact ⟨[], rfl, List.forall_mem_nil _, by rw [List.append_nil, Except.ok.inj h]⟩
  | case2 => cases h
  | case3 => cases h
  | case4 filename filenames configIds id hid number hsmall ih =>
      obtain ⟨numbers, rfl, hbound, rfl⟩ := ih h
      obtain ⟨k, hpos, -, rfl, rfl⟩ := templateId_eq_some_iff.mp hid
      have hvalue : number = k := Nat.ofDigitChars_ten_toDigits
      rw [hvalue] at hsmall ⊢
      exact ⟨k :: numbers, rfl, List.forall_mem_cons.mpr ⟨⟨hpos, Nat.not_lt.mp hsmall⟩, hbound⟩,
        (List.append_cons _ _ _).symm⟩

theorem checkContiguous_ok_iff : ∀ {expected : Nat} {configIds : List Nat},
    checkContiguous expected configIds = .ok () ↔
      configIds = List.range' expected configIds.length
  | _, [] => iff_of_true rfl rfl
  | expected, configId :: configIds => by
      rw [checkContiguous, List.length_cons, List.range'_succ, List.cons.injEq]
      split
      · next hne => exact iff_of_false (by rintro ⟨⟩) fun h => hne h.1
      · next heq =>
          rw [checkContiguous_ok_iff]
          exact (and_iff_right (not_not.mp heq)).symm

/-! ## The result -/

/-- The names are those of the configurations 1 to `n`, and all of these
have a port. -/
structure IsMatrix (filenames : List Text) (n : Nat) : Prop where
  pos : 1 ≤ n
  ports : n ≤ 65535 - portBase
  names : ∀ filename, filename ∈ filenames ↔ ∃ k, 1 ≤ k ∧ k ≤ n ∧ filename = templateName k

theorem mem_countTo {n k : Nat} : k ∈ List.range' 1 n ↔ 1 ≤ k ∧ k ≤ n := by
  rw [List.mem_range'_1]
  omega

theorem discoverConfigs_ok_iff {directory : Text} {filenames : List Text} {configIds : List Nat} :
    discoverConfigs directory filenames = .ok configIds ↔
      filenames ≠ [] ∧ ∃ found, collectIds filenames [] = .ok found
        ∧ checkContiguous 1 (found.insertionSort (· ≤ ·)) = .ok ()
        ∧ configIds = found.insertionSort (· ≤ ·) := by
  unfold discoverConfigs
  by_cases hnil : filenames = []
  · rw [if_pos hnil]
    exact iff_of_false (by rintro ⟨⟩) fun h => h.1 hnil
  · rw [if_neg hnil]
    cases hcollect : collectIds filenames [] with
    | error e =>
        refine iff_of_false (by rintro ⟨⟩) ?_
        rintro ⟨-, found, hfound, -⟩
        cases hfound
    | ok found =>
        change (checkContiguous 1 (found.insertionSort (· ≤ ·))
          >>= fun _ => pure (found.insertionSort (· ≤ ·))) = _ ↔ _
        cases hcount : checkContiguous 1 (found.insertionSort (· ≤ ·)) with
        | error e =>
            refine iff_of_false (by rintro ⟨⟩) ?_
            rintro ⟨-, found', hfound, hok, -⟩
            obtain rfl := Except.ok.inj hfound
            cases hcount.symm.trans hok
        | ok u =>
            constructor
            · intro h
              exact ⟨hnil, found, rfl, hcount, (Except.ok.inj h).symm⟩
            · rintro ⟨-, found', hfound, -, rfl⟩
              obtain rfl := Except.ok.inj hfound
              rfl

/-- The canonical names of these numbers, without repetition, are a matrix
exactly if the numbers in order count from 1. -/
theorem isMatrix_templateName {numbers : List Nat} (hnodup : numbers.Nodup)
    (hbound : ∀ k ∈ numbers, 1 ≤ k ∧ k ≤ 65535 - portBase) {n : Nat} (hpos : 1 ≤ n) :
    IsMatrix (numbers.map templateName) n ↔
      numbers.insertionSort (· ≤ ·) = List.range' 1 n := by
  have hperm : (numbers.insertionSort (· ≤ ·)).Perm numbers := List.perm_insertionSort _ _
  constructor
  · rintro ⟨-, -, hnames⟩
    have hmem : ∀ k, k ∈ numbers ↔ k ∈ List.range' 1 n := by
      intro k
      rw [mem_countTo, ← List.mem_map_of_injective templateName_injective, hnames]
      constructor
      · rintro ⟨k', hge, hle, hname⟩
        rw [templateName_injective hname]
        exact ⟨hge, hle⟩
      · rintro ⟨hge, hle⟩
        exact ⟨k, hge, hle, rfl⟩
    have hsame : numbers.Perm (List.range' 1 n) :=
      (List.perm_ext_iff_of_nodup hnodup List.nodup_range').mpr hmem
    exact (hperm.trans hsame).eq_of_sortedLE List.sortedLE_insertionSort (List.sortedLE_range' ..)
  · intro hsort
    rw [hsort] at hperm
    have hmem : ∀ k, k ∈ numbers ↔ 1 ≤ k ∧ k ≤ n := fun k => hperm.mem_iff.symm.trans mem_countTo
    refine ⟨hpos, (hbound n ((hmem n).mpr ⟨hpos, Nat.le_refl n⟩)).2, fun filename => ?_⟩
    rw [List.mem_map]
    constructor
    · rintro ⟨k, hk, rfl⟩
      obtain ⟨hge, hle⟩ := (hmem k).mp hk
      exact ⟨k, hge, hle, rfl⟩
    · rintro ⟨k, hge, hle, rfl⟩
      exact ⟨k, (hmem k).mpr ⟨hge, hle⟩, rfl⟩

/-- The names of a matrix are canonical names. -/
theorem IsMatrix.exists_numbers {filenames : List Text} {n : Nat} (h : IsMatrix filenames n) :
    ∃ numbers : List Nat, filenames = numbers.map templateName
      ∧ ∀ k ∈ numbers, 1 ≤ k ∧ k ≤ 65535 - portBase := by
  have hrange : filenames ∈ Set.range (List.map templateName) := by
    rw [Set.range_list_map]
    intro filename hmem
    obtain ⟨k, -, -, rfl⟩ := (h.names filename).mp hmem
    exact ⟨k, rfl⟩
  obtain ⟨numbers, rfl⟩ := hrange
  refine ⟨numbers, rfl, fun k hk => ?_⟩
  obtain ⟨k', hge, hle, hname⟩ := (h.names _).mp (List.mem_map_of_mem hk)
  rw [templateName_injective hname]
  exact ⟨hge, hle.trans h.ports⟩

/-- A set of names in any order is accepted exactly if it is the matrix of
the configurations 1 to `n`. -/
theorem discoverConfigs_iff {directory : Text} {filenames : List Text} (hnodup : filenames.Nodup)
    {configIds : List Nat} :
    discoverConfigs directory filenames = .ok configIds ↔
      ∃ n, IsMatrix filenames n ∧ configIds = List.range' 1 n := by
  rw [discoverConfigs_ok_iff]
  constructor
  · rintro ⟨hne, found, hcollect, hcount, rfl⟩
    obtain ⟨numbers, rfl, hbound, hfound⟩ := templateName_of_collectIds hcollect
    rw [List.nil_append] at hfound
    subst hfound
    rw [checkContiguous_ok_iff, List.length_insertionSort] at hcount
    have hpos : 1 ≤ found.length := by
      refine List.length_pos_iff.mpr fun hnil => hne ?_
      rw [hnil, List.map_nil]
    exact ⟨found.length, (isMatrix_templateName hnodup.of_map hbound hpos).mpr hcount, hcount⟩
  · rintro ⟨n, hmatrix, rfl⟩
    obtain ⟨numbers, rfl, hbound⟩ := hmatrix.exists_numbers
    have hsort := (isMatrix_templateName hnodup.of_map hbound hmatrix.pos).mp hmatrix
    refine ⟨fun hnil => ?_, numbers, collectIds_templateName [] hbound, ?_, hsort.symm⟩
    · have hfirst := (hmatrix.names (templateName 1)).mpr ⟨1, Nat.le_refl 1, hmatrix.pos, rfl⟩
      rw [hnil] at hfirst
      cases hfirst
    · rw [hsort, checkContiguous_ok_iff, List.length_range']

theorem validConfig_iff {configIds : List Nat} {requested : Text} :
    validConfig configIds requested = true ↔ ∃ k ∈ configIds, requested = Text.ofNat k := by
  unfold validConfig
  split
  · next hbad =>
      refine iff_of_false Bool.false_ne_true ?_
      rintro ⟨k, -, rfl⟩
      rcases hbad with hnil | hany
      · exact Nat.toDigits_ne_nil hnil
      · obtain ⟨c, hc, hdigit⟩ := List.any_eq_true.mp hany
        rw [Text.isDigit_ofNat hc] at hdigit
        cases hdigit
  · simp only [List.any_eq_true, decide_eq_true_eq]

/-- Discovery succeeds exactly on the matrices of configurations that count
from 1 and have ports. The ids then are in order, their ports differ and
exist, and `valid_config` takes exactly their numerals. -/
theorem config_discovery {directory : Text} {filenames : List Text} (hnodup : filenames.Nodup) :
    (∀ configIds, discoverConfigs directory filenames = .ok configIds ↔
      ∃ n, IsMatrix filenames n ∧ configIds = List.range' 1 n)
    ∧ ∀ configIds, discoverConfigs directory filenames = .ok configIds →
      (configIds.map (portBase + ·)).Nodup
      ∧ (∀ k ∈ configIds, portBase + k ≤ 65535)
      ∧ ∀ requested, validConfig configIds requested = true ↔
        ∃ k, 1 ≤ k ∧ k ≤ configIds.length ∧ requested = Text.ofNat k := by
  refine ⟨fun configIds => discoverConfigs_iff hnodup, fun configIds h => ?_⟩
  obtain ⟨n, hmatrix, rfl⟩ := (discoverConfigs_iff hnodup).mp h
  refine ⟨?_, fun k hk => ?_, fun requested => ?_⟩
  · exact List.Nodup.map (fun _ _ => Nat.add_left_cancel) List.nodup_range'
  · have hle := (mem_countTo.mp hk).2.trans hmatrix.ports
    unfold portBase at hle ⊢
    omega
  · rw [validConfig_iff, List.length_range']
    simp only [mem_countTo, and_assoc]

theorem config_discovery_two :
    ["config-2.conf.in".toList, "config-1.conf.in".toList].Nodup
      ∧ ∃ n, IsMatrix ["config-2.conf.in".toList, "config-1.conf.in".toList] n
        ∧ [1, 2] = List.range' 1 n :=
  ⟨by decide, ((@config_discovery "/src".toList _ (by decide)).1 [1, 2]).mp rfl⟩

end LighttpdFuzz
