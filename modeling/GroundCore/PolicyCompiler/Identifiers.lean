import Mathlib.Data.List.Nodup
import GroundCore.PolicyCompiler.Generator
import GroundCore.PolicyCompiler.Parser

/-! The names of the generated types.  A band's name loses its hyphens and spaces and is then put
between fixed words, so the generator comes through exactly when what is left of each name is made
of identifier characters.  Two types then share a name exactly when two bands are left with the
same suffix, or when one suffix is another one with `Band` moved from its front to an ending at its
back. -/

namespace GroundCore.PolicyCompiler

open Lib

/-- What follows a band's suffix in the names of its licence, its coordination proof and its
frequency. -/
def endings : List String := ["License", "CoordinationProof", "Frequency"]

def suffixOf {F64 : Type} (rules : BandRules F64) : String := bandSuffix rules.band.name

/-! ### Names with a fixed front or back -/

theorem getLast?_append_ending {ending : String} (h : ending ∈ endings) (suffix : String) :
    (suffix ++ ending).toList.getLast? = ending.toList.getLast? := by
  have hsome : ∀ ending ∈ endings, ending.toList.getLast?.isSome := by decide
  obtain ⟨c, hc⟩ := Option.isSome_iff_exists.mp (hsome ending h)
  rw [String.toList_append, List.getLast?_append, hc, Option.some_or]

/-- The endings are told apart by their last letters. -/
theorem append_ending_inj {u v ending ending' : String} (h : ending ∈ endings)
    (h' : ending' ∈ endings) (heq : u ++ ending = v ++ ending') : u = v ∧ ending = ending' := by
  have hlast : ∀ ending ∈ endings, ∀ ending' ∈ endings,
      ending.toList.getLast? = ending'.toList.getLast? → ending = ending' := by decide
  have hending : ending = ending' := by
    apply hlast ending h ending' h'
    rw [← getLast?_append_ending h u, heq, getLast?_append_ending h' v]
  subst hending
  exact ⟨(String.append_left_inj ending).mp heq, rfl⟩

/-- No ending begins inside `Band`, so a name with both has something between them. -/
theorem band_append_eq_iff {u v ending : String} (h : ending ∈ endings) :
    "Band" ++ u = v ++ ending ↔ ∃ w, u = w ++ ending ∧ v = "Band" ++ w := by
  constructor
  · intro heq
    have hlists := congrArg String.toList heq
    rw [String.toList_append, String.toList_append] at hlists
    obtain ⟨w, hv, hu⟩ | ⟨w, hband, hending⟩ := List.append_eq_append_iff.mp hlists
    · refine ⟨String.ofList w, String.toList_injective ?_, String.toList_injective ?_⟩
      · simp [hu]
      · simp [hv]
    · cases w with
      | nil =>
        refine ⟨"", String.toList_injective ?_, String.toList_injective ?_⟩
        · simp [hending]
        · simpa using hband.symm
      | cons c w =>
        have hhead : ∀ ending ∈ endings, ∀ c ∈ ending.toList.head?, c ∉ "Band".toList := by
          simp [endings]
        refine absurd ?_ (hhead ending h c (by rw [hending]; rfl))
        rw [hband]
        simp
  · rintro ⟨w, rfl, rfl⟩
    rw [String.append_assoc]

theorem band_append_ne_transmit (suffix : String) : "Band" ++ suffix ≠ "transmit" := by
  intro heq
  have hhead := congrArg (fun name => name.toList.head?) heq
  simp only [String.toList_append] at hhead
  exact absurd hhead (by simp)

theorem append_ending_ne_transmit {ending : String} (h : ending ∈ endings) (suffix : String) :
    suffix ++ ending ≠ "transmit" := by
  intro heq
  have hlast : ∀ ending ∈ endings, ending.toList.getLast? ≠ "transmit".toList.getLast? := by decide
  apply hlast ending h
  rw [← getLast?_append_ending h suffix, heq]

/-! ### Names of a whole module -/

/-- The names of the types of bands with the given suffixes, and of `transmit`. -/
def moduleNames (suffixes : List String) : List String :=
  suffixes.map ("Band" ++ ·) ++
    (endings.flatMap (fun ending => suffixes.map (· ++ ending)) ++ ["transmit"])

/-- No suffix is another one with `Band` moved from its front to an ending at its back. -/
def Separate (suffixes : List String) : Prop :=
  ∀ w, ∀ ending ∈ endings, w ++ ending ∈ suffixes → "Band" ++ w ∉ suffixes

theorem nodup_endings_flatMap {suffixes : List String} (h : suffixes.Nodup) :
    (endings.flatMap fun ending => suffixes.map (· ++ ending)).Nodup := by
  refine List.nodup_flatMap.mpr ⟨fun ending hending => ?_, ?_⟩
  · exact h.map_on fun u _ v _ heq => (append_ending_inj hending hending heq).1
  · have hnodup : endings.Nodup := by decide
    refine hnodup.imp_of_mem fun hending hending' hne => ?_
    intro name hname hname'
    obtain ⟨u, -, rfl⟩ := List.mem_map.mp hname
    obtain ⟨v, -, heq⟩ := List.mem_map.mp hname'
    exact hne (append_ending_inj hending' hending heq).2.symm

theorem nodup_moduleNames_iff {suffixes : List String} :
    (moduleNames suffixes).Nodup ↔ suffixes.Nodup ∧ Separate suffixes := by
  constructor
  · intro h
    obtain ⟨hband, hrest, hdisjoint⟩ := List.nodup_append'.mp h
    refine ⟨hband.of_map, fun w ending hending hback hfront => ?_⟩
    refine hdisjoint (List.mem_map_of_mem hback) (List.mem_append_left _ ?_)
    refine List.mem_flatMap.mpr ⟨ending, hending, List.mem_map.mpr ⟨_, hfront, ?_⟩⟩
    rw [String.append_assoc]
  · rintro ⟨hnodup, hseparate⟩
    have hband : (suffixes.map ("Band" ++ ·)).Nodup :=
      hnodup.map_on fun _ _ _ _ heq => (String.append_right_inj _).mp heq
    refine List.nodup_append'.mpr ⟨hband, ?_, ?_⟩
    · refine List.nodup_append'.mpr ⟨nodup_endings_flatMap hnodup, List.nodup_singleton _, ?_⟩
      rw [List.disjoint_singleton]
      intro htransmit
      obtain ⟨ending, hending, htransmit⟩ := List.mem_flatMap.mp htransmit
      obtain ⟨suffix, -, htransmit⟩ := List.mem_map.mp htransmit
      exact append_ending_ne_transmit hending suffix htransmit
    · intro name hband hrest
      obtain ⟨u, hu, rfl⟩ := List.mem_map.mp hband
      rcases List.mem_append.mp hrest with hname | htransmit
      · obtain ⟨ending, hending, hname⟩ := List.mem_flatMap.mp hname
        obtain ⟨v, hv, heq⟩ := List.mem_map.mp hname
        obtain ⟨w, rfl, rfl⟩ := (band_append_eq_iff hending).mp heq.symm
        exact hseparate w ending hending hu hv
      · exact band_append_ne_transmit u (List.mem_singleton.mp htransmit)

/-! ### Names that are identifiers -/

namespace IdentChars

variable {chars : IdentChars}

/-- A suffix from which every name is an identifier. -/
structure Stem (chars : IdentChars) (suffix : String) : Prop where
  continues : ∀ c ∈ suffix.toList, chars.xidContinue c = true
  starts : ∀ c ∈ suffix.toList.head?, chars.isStart c = true

theorem isIdent_of_toList {text : String} {c : Char} {rest : List Char}
    (h : text.toList = c :: rest) :
    chars.isIdent text = true ↔
      chars.isStart c = true ∧ ∀ d ∈ rest, chars.xidContinue d = true := by
  rw [isIdent, h, Bool.and_eq_true, List.all_eq_true]

theorem isStart_of_alpha (chars : IdentChars) {c : Char} (h : c.isAlpha = true) :
    chars.isStart c = true := by
  rw [isStart, chars.start_of_alpha c h, Bool.or_true]

theorem continue_of_alpha (chars : IdentChars) {c : Char} (h : c.isAlpha = true) :
    chars.xidContinue c = true := chars.continue_of_start c (chars.start_of_alpha c h)

theorem isIdent_band_iff {suffix : String} :
    chars.isIdent ("Band" ++ suffix) = true ↔
      ∀ c ∈ suffix.toList, chars.xidContinue c = true := by
  have hlist : ("Band" ++ suffix).toList = 'B' :: (['a', 'n', 'd'] ++ suffix.toList) := by simp
  rw [isIdent_of_toList hlist, List.forall_mem_append]
  have hband : ∀ c ∈ ['a', 'n', 'd'], c.isAlpha = true := by simp
  constructor
  · exact fun h => h.2.2
  · exact fun h => ⟨chars.isStart_of_alpha (by decide),
      fun c hc => chars.continue_of_alpha (hband c hc), h⟩

theorem Stem.isIdent_append {suffix ending : String} (h : chars.Stem suffix)
    (hending : ending ∈ endings) : chars.isIdent (suffix ++ ending) = true := by
  have halpha : ∀ ending ∈ endings, ∀ c ∈ ending.toList, c.isAlpha = true := by
    simp [endings]
  have hcontinues : ∀ c ∈ ending.toList, chars.xidContinue c = true :=
    fun c hc => chars.continue_of_alpha (halpha ending hending c hc)
  cases hsuffix : suffix.toList with
  | nil =>
    cases hlist : ending.toList with
    | nil =>
      have hne : ∀ ending ∈ endings, ending.toList ≠ [] := by decide
      exact absurd hlist (hne ending hending)
    | cons c rest =>
      have happend : (suffix ++ ending).toList = c :: rest := by
        rw [String.toList_append, hsuffix, List.nil_append, hlist]
      have hstart := chars.isStart_of_alpha (halpha ending hending c (by rw [hlist]; simp))
      rw [hlist, List.forall_mem_cons] at hcontinues
      exact (isIdent_of_toList happend).mpr ⟨hstart, hcontinues.2⟩
  | cons c rest =>
    have happend : (suffix ++ ending).toList = c :: (rest ++ ending.toList) := by
      rw [String.toList_append, hsuffix, List.cons_append]
    have hstart := h.starts c (by rw [hsuffix]; rfl)
    have hrest := h.continues
    rw [hsuffix, List.forall_mem_cons] at hrest
    exact (isIdent_of_toList happend).mpr
      ⟨hstart, List.forall_mem_append.mpr ⟨hrest.2, hcontinues⟩⟩

theorem stem_of_isIdent {suffix ending : String}
    (hband : chars.isIdent ("Band" ++ suffix) = true)
    (h : chars.isIdent (suffix ++ ending) = true) : chars.Stem suffix := by
  refine ⟨isIdent_band_iff.mp hband, fun c hc => ?_⟩
  obtain ⟨rest, hrest⟩ := List.head?_eq_some_iff.mp hc
  have hlist : (suffix ++ ending).toList = c :: (rest ++ ending.toList) := by
    rw [String.toList_append, hrest, List.cons_append]
  exact ((isIdent_of_toList hlist).mp h).1

theorem Stem.formatIdent_band {suffix : String} (h : chars.Stem suffix) :
    chars.formatIdent ("Band" ++ suffix) = some ("Band" ++ suffix) :=
  if_pos (isIdent_band_iff.mpr h.continues)

theorem Stem.formatIdent_append {suffix ending : String} (h : chars.Stem suffix)
    (hending : ending ∈ endings) :
    chars.formatIdent (suffix ++ ending) = some (suffix ++ ending) :=
  if_pos (h.isIdent_append hending)

theorem isIdent_of_formatIdent {text name : String} (h : chars.formatIdent text = some name) :
    chars.isIdent text = true := (Option.ite_none_right_eq_some.mp h).1

end IdentChars

/-! ### What each generator defines -/

namespace GeneratedTypes

variable {chars : IdentChars} {band : FrequencyBand}

theorem generateBandType_of_stem (h : chars.Stem (bandSuffix band.name)) :
    ∃ items, generateBandType chars band = some items ∧
      items.filterMap Item.definedName = ["Band" ++ bandSuffix band.name] := by
  unfold generateBandType
  rw [h.formatIdent_band]
  exact ⟨_, rfl, rfl⟩

theorem generateLicenseType_of_stem (requirement : LicenseRequirement)
    (h : chars.Stem (bandSuffix band.name)) :
    ∃ items, generateLicenseType chars band requirement = some items ∧
      items.filterMap Item.definedName = [bandSuffix band.name ++ "License"] := by
  have hending : "License" ∈ endings := by decide
  simp only [generateLicenseType, h.formatIdent_band, h.formatIdent_append hending]
  cases requirement.licenseType <;> exact ⟨_, rfl, rfl⟩

theorem generateCoordinationType_of_stem (h : chars.Stem (bandSuffix band.name)) :
    ∃ item, generateCoordinationType chars band = some item ∧
      item.definedName = some (bandSuffix band.name ++ "CoordinationProof") := by
  have hending : "CoordinationProof" ∈ endings := by decide
  simp only [generateCoordinationType, h.formatIdent_band, h.formatIdent_append hending]
  exact ⟨_, rfl, rfl⟩

theorem generateFrequencyType_of_stem (h : chars.Stem (bandSuffix band.name)) :
    ∃ item, generateFrequencyType chars band = some item ∧
      item.definedName = some (bandSuffix band.name ++ "Frequency") := by
  have hending : "Frequency" ∈ endings := by decide
  simp only [generateFrequencyType, h.formatIdent_band, h.formatIdent_append hending]
  exact ⟨_, rfl, rfl⟩

theorem stem_of_generateLicenseType {requirement : LicenseRequirement} {items : List Item}
    (h : generateLicenseType chars band requirement = some items) :
    chars.Stem (bandSuffix band.name) := by
  obtain ⟨bandName, hband, h⟩ := Option.bind_eq_some_iff.mp h
  obtain ⟨licenseName, hlicense, -⟩ := Option.bind_eq_some_iff.mp h
  exact IdentChars.stem_of_isIdent (IdentChars.isIdent_of_formatIdent hband)
    (IdentChars.isIdent_of_formatIdent hlicense)

variable {F64 : Type}

/-- The items that the generators make for one band. -/
def bandItems (chars : IdentChars) (rules : BandRules F64) : Option (List Item) := do
  let bandTypes ← generateBandType chars rules.band
  let licenseTypes ← generateLicenseType chars rules.band rules.licenseRequirement
  let coordinationType ← generateCoordinationType chars rules.band
  let frequencyType ← generateFrequencyType chars rules.band
  return bandTypes ++ licenseTypes ++ [coordinationType, frequencyType]

/-- The names of the types of a band. -/
def bandNames (suffix : String) : List String :=
  ("Band" ++ suffix) :: endings.map (suffix ++ ·)

/-- A name that two suffixes share is made of `Band`, something and an ending. -/
theorem disjoint_bandNames {suffixes : List String} (h : Separate suffixes) {u v : String}
    (hu : u ∈ suffixes) (hv : v ∈ suffixes) (hne : u ≠ v) :
    (bandNames u).Disjoint (bandNames v) := by
  intro name hname hname'
  rcases List.mem_cons.mp hname with rfl | hname
  · rcases List.mem_cons.mp hname' with heq | hname'
    · exact hne ((String.append_right_inj _).mp heq)
    · obtain ⟨ending, hending, heq⟩ := List.mem_map.mp hname'
      obtain ⟨w, rfl, rfl⟩ := (band_append_eq_iff hending).mp heq.symm
      exact h w ending hending hu hv
  · obtain ⟨ending, hending, rfl⟩ := List.mem_map.mp hname
    rcases List.mem_cons.mp hname' with heq | hname'
    · obtain ⟨w, rfl, rfl⟩ := (band_append_eq_iff hending).mp heq.symm
      exact h w ending hending hv hu
    · obtain ⟨ending', hending', heq⟩ := List.mem_map.mp hname'
      exact hne (append_ending_inj hending' hending heq).1.symm

theorem bandItems_of_stem {rules : BandRules F64} (h : chars.Stem (suffixOf rules)) :
    ∃ items, bandItems chars rules = some items ∧
      items.filterMap Item.definedName = bandNames (suffixOf rules) := by
  obtain ⟨bandTypes, hband, hbandNames⟩ := generateBandType_of_stem h
  obtain ⟨licenseTypes, hlicense, hlicenseNames⟩ :=
    generateLicenseType_of_stem rules.licenseRequirement h
  obtain ⟨coordinationType, hcoordination, hcoordinationName⟩ := generateCoordinationType_of_stem h
  obtain ⟨frequencyType, hfrequency, hfrequencyName⟩ := generateFrequencyType_of_stem h
  refine ⟨bandTypes ++ licenseTypes ++ [coordinationType, frequencyType], ?_, ?_⟩
  · rw [bandItems, hband, hlicense, hcoordination, hfrequency]
    rfl
  · rw [List.filterMap_append, List.filterMap_append, hbandNames, hlicenseNames,
      List.filterMap_cons_some hcoordinationName, List.filterMap_cons_some hfrequencyName]
    rfl

/-! ### What the whole policy defines -/

theorem filterMap_flatten {name : BandRules F64 → String} {bands : List (BandRules F64)}
    {itemLists : List (List Item)}
    (h : List.Forall₂ (fun rules items => items.filterMap Item.definedName = [name rules]) bands
      itemLists) : itemLists.flatten.filterMap Item.definedName = bands.map name := by
  induction h with
  | nil => rfl
  | cons hitems _ ih => rw [List.flatten_cons, List.filterMap_append, hitems, ih]; rfl

theorem filterMap_items {name : BandRules F64 → String} {bands : List (BandRules F64)}
    {items : List Item}
    (h : List.Forall₂ (fun rules item => item.definedName = some (name rules)) bands items) :
    items.filterMap Item.definedName = bands.map name := by
  induction h with
  | nil => rfl
  | cons hitem _ ih => rw [List.filterMap_cons_some hitem, ih]; rfl

variable {policy : RegulatoryPolicy F64}

theorem fromPolicy_of_stems
    (h : ∀ rules ∈ policy.bandRules, chars.Stem (suffixOf rules)) :
    ∃ generated, fromPolicy chars policy = some generated ∧
      generated.definedNames = moduleNames (policy.bandRules.map suffixOf) := by
  obtain ⟨bandTypes, hband, hbandNames⟩ :=
    exists_mapM fun rules hrules => generateBandType_of_stem (h rules hrules)
  obtain ⟨licenseTypes, hlicense, hlicenseNames⟩ := exists_mapM fun rules hrules =>
    generateLicenseType_of_stem rules.licenseRequirement (h rules hrules)
  obtain ⟨coordinationTypes, hcoordination, hcoordinationNames⟩ :=
    exists_mapM fun rules hrules => generateCoordinationType_of_stem (h rules hrules)
  obtain ⟨frequencyTypes, hfrequency, hfrequencyNames⟩ :=
    exists_mapM fun rules hrules => generateFrequencyType_of_stem (h rules hrules)
  refine ⟨_, by rw [fromPolicy, hband, hlicense, hcoordination, hfrequency]; rfl, ?_⟩
  simp only [definedNames, List.filterMap_append]
  rw [filterMap_flatten hbandNames, filterMap_flatten hlicenseNames,
    filterMap_items hcoordinationNames, filterMap_items hfrequencyNames]
  simp [moduleNames, endings, Item.definedName, suffixOf, Function.comp_def]

theorem stems_of_fromPolicy {generated : GeneratedTypes}
    (h : fromPolicy chars policy = some generated) :
    ∀ rules ∈ policy.bandRules, chars.Stem (suffixOf rules) := by
  obtain ⟨bandTypes, -, h⟩ := Option.bind_eq_some_iff.mp h
  obtain ⟨licenseTypes, hlicense, -⟩ := Option.bind_eq_some_iff.mp h
  intro rules hrules
  obtain ⟨items, hitems⟩ := exists_of_mapM hlicense rules hrules
  exact stem_of_generateLicenseType hitems

/-- The generator comes through, bands with different names give types with different names, and
no name is defined twice. -/
def CollisionFree (chars : IdentChars) (policy : RegulatoryPolicy F64) : Prop :=
  ∃ generated, fromPolicy chars policy = some generated ∧ generated.definedNames.Nodup ∧
    ∀ a ∈ policy.bandRules, ∀ b ∈ policy.bandRules, a.band.name ≠ b.band.name →
      ∀ aItems bItems, bandItems chars a = some aItems → bandItems chars b = some bItems →
        (aItems.filterMap Item.definedName).Disjoint (bItems.filterMap Item.definedName)

/-- What is left of each band's name begins and goes on like an identifier, no two bands are left
with the same, and none with that of another one moved between `Band` and an ending. -/
structure NamesApart (chars : IdentChars) (policy : RegulatoryPolicy F64) : Prop where
  stems : ∀ rules ∈ policy.bandRules, chars.Stem (suffixOf rules)
  distinct : (policy.bandRules.map suffixOf).Nodup
  separate : Separate (policy.bandRules.map suffixOf)

theorem collisionFree_iff_namesApart (chars : IdentChars) (policy : RegulatoryPolicy F64) :
    CollisionFree chars policy ↔ NamesApart chars policy := by
  constructor
  · rintro ⟨generated, hgenerated, hnodup, -⟩
    have hstems := stems_of_fromPolicy hgenerated
    obtain ⟨generated', hgenerated', hnames⟩ := fromPolicy_of_stems hstems
    cases hgenerated.symm.trans hgenerated'
    rw [hnames, nodup_moduleNames_iff] at hnodup
    exact ⟨hstems, hnodup.1, hnodup.2⟩
  · rintro ⟨hstems, hdistinct, hseparate⟩
    obtain ⟨generated, hgenerated, hnames⟩ := fromPolicy_of_stems hstems
    refine ⟨generated, hgenerated, ?_, fun a ha b hb hne aItems bItems haItems hbItems => ?_⟩
    · rw [hnames, nodup_moduleNames_iff]
      exact ⟨hdistinct, hseparate⟩
    · obtain ⟨_, haItems', haNames⟩ := bandItems_of_stem (hstems a ha)
      obtain ⟨_, hbItems', hbNames⟩ := bandItems_of_stem (hstems b hb)
      cases haItems.symm.trans haItems'
      cases hbItems.symm.trans hbItems'
      rw [haNames, hbNames]
      refine disjoint_bandNames hseparate (List.mem_map_of_mem ha) (List.mem_map_of_mem hb) ?_
      intro hsuffix
      have hab := List.inj_on_of_nodup_map hdistinct ha hb hsuffix
      exact hne (by rw [hab])

section Documents

def asciiChars : IdentChars where
  xidStart := Char.isAlpha
  xidContinue c := c.isAlphanum || c = '_'
  continue_of_start c h := by simp [Char.isAlphanum, h]
  start_of_alpha _ h := h

def bandItem (name : String) : JsonValue ℚ :=
  .object [
    ("band", .object [("name", .string name), ("min_frequency", .number (.posInt 2400000000)),
      ("max_frequency", .number (.posInt 2500000000))]),
    ("power_limits", .object [("max_power_dbm", .number (.float 30))])]

def bandDocument (names : List String) : JsonValue ℚ :=
  .object [("name", .string "Test Policy"), ("jurisdiction", .string "US"),
    ("band_rules", .array (names.map bandItem))]

def bandPolicy (names : List String) : RegulatoryPolicy ℚ :=
  { name := "Test Policy"
    version := "1.0"
    jurisdiction := "US"
    bandRules := names.map fun name => {
      band := {
        name
        lowerHz := 2400000000
        upperHz := 2500000000
        regulatoryBody := "UNKNOWN"
        jurisdiction := "GLOBAL" }
      powerLimits := { maxPowerDbm := 30, powerType := .eirp }
      licenseRequirement := { licenseType := .none, requiresCoordination := false }
      coordination := { coordinationBodies := [], process := .none } }
    issuedAt := 0 }

/-- A full stop in a name makes the generator panic, and two spellings of a name give one type
twice. -/
theorem accepted_names_fail :
    letI := FloatOps.exact id id
    (PolicyParser.parseValue 0 (bandDocument ["2.4 GHz"]) = .ok (bandPolicy ["2.4 GHz"]) ∧
      ¬ CollisionFree asciiChars (bandPolicy ["2.4 GHz"])) ∧
    (PolicyParser.parseValue 0 (bandDocument ["S-band", "S band"]) =
        .ok (bandPolicy ["S-band", "S band"]) ∧
      ¬ CollisionFree asciiChars (bandPolicy ["S-band", "S band"])) := by
  let _ := FloatOps.exact id id
  refine ⟨⟨rfl, ?_⟩, ⟨rfl, ?_⟩⟩
  · rintro ⟨generated, hgenerated, -, -⟩
    have hpanic : fromPolicy asciiChars (bandPolicy ["2.4 GHz"]) = none := by decide +kernel
    rw [hpanic] at hgenerated
    contradiction
  · rintro ⟨generated, hgenerated, hnodup, -⟩
    have hnames : (fromPolicy asciiChars (bandPolicy ["S-band", "S band"])).map definedNames =
        some (moduleNames ["Sband", "Sband"]) := by decide +kernel
    rw [hgenerated, Option.map_some, Option.some.injEq] at hnames
    rw [hnames] at hnodup
    exact absurd hnodup (by decide +kernel)

end Documents

end GeneratedTypes

end GroundCore.PolicyCompiler
