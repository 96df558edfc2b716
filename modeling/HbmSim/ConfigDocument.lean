/-
Configuration documents. A document is a list of entries in sections; a selection
of standard and preset makes some of its sections active, every active section has
a layer, and the entries of all documents are brought into one list in the order of
layer, document and line, of which the last entry of a key takes effect.

The order of the sections in a document does not matter, because a key that a layer
sets twice in one document is refused. Only the source and the reference of timings
may be set by several sections, each for its own.

The extends list and the path of a document are read by the loader alone and are
left out.
-/

import HbmSim.Common
import HbmSim.Lib.Ranked

namespace HbmSim.Config

/-! ### Names -/

def trim (value : String) : String :=
  String.ofList (((value.toList.dropWhile isSpace).reverse.dropWhile isSpace).reverse)

/-- `normalize_name`. -/
def normalizeName (value : String) : String :=
  (trim value).map fun c => if c = '-' then '_' else c.toLower

def canonicalStandard (value : String) : String :=
  let value := normalizeName value
  if value = "hbm" then "hbm4"
  else if value = "lpddr" ∨ value = "ldppr" then "lpddr6"
  else value

/-- `split_section`: the parts between the dots. A last part that is empty is not one. -/
def splitSection (name : String) : List String :=
  let parts := (name.toList.splitOn '.').map String.ofList
  if parts.getLast? = some "" then parts.dropLast else parts

def startsWith (name start : String) : Bool := start.toList.isPrefixOf name.toList

/-! ### Entries -/

structure ConfigEntry where
  key : String
  value : String
  sectionName : String := ""
  path : String := ""
  line : Nat := 0
  layer : Nat := 0
  timingSource : String := "research_default"
  deriving DecidableEq, Repr

structure ConfigDocument where
  sectioned : Bool := false
  entries : List ConfigEntry := []
  deriving DecidableEq, Repr

structure Selection where
  standard : String := "hbm4"
  preset : String := ""
  deriving DecidableEq, Repr

def isCommonSection (name : String) : Bool :=
  decide (name ∈ ["common", "system", "workload", "architecture", "timing", "protocol",
    "controller", "controller.scheduler", "controller.row_policy", "mapping", "phy",
    "maintenance", "storage", "power", "thermal", "reliability", "reliability.payload",
    "fault_injection", "outputs", "validation", "frontend", "memory_system",
    "dram.organization", "dram.timing", "dram.protocol", "controller.refresh",
    "controller.addr_mapper", "audit"]) || startsWith name "timing."

/-- `section_layer`: the layer of a section, and whether the selection makes it active. -/
def sectionLayer (name : String) (selection : Selection) : Except Exception (Nat × Bool) :=
  if name = "" then .ok (10, true)
  else if name = "meta" ∨ name = "model" then .ok (0, true)
  else if name = "override" then .ok (50, true)
  else if isCommonSection name then .ok (10, true)
  else
    match splitSection name with
    | ["family", family] =>
      let hbm := decide (selection.standard = "hbm3" ∨ selection.standard = "hbm4")
      .ok (20, (decide (family = "hbm") && hbm) || (decide (family = "lpddr") && !hbm))
    | "standard" :: standard :: _ =>
      .ok (30, decide (canonicalStandard standard = selection.standard))
    | "preset" :: standard :: preset :: _ =>
      .ok (40, decide (canonicalStandard standard = selection.standard) &&
        decide (normalizeName preset = normalizeName selection.preset))
    | _ => .error (runtimeError ("unknown config section [" ++ name ++ "]"))

/-- The keys that a section gives a shorter name. -/
def sectionAliases : List ((String × String) × String) :=
  [(("model", "name"), "model_name"),
   (("model", "base_standard"), "standard"),
   (("validation", "mode"), "validation_mode"),
   (("controller.scheduler", "type"), "scheduler"),
   (("controller.row_policy", "type"), "row_policy"),
   (("controller.row_policy", "cap"), "row_policy_cap"),
   (("phy", "mode"), "mem_phy_mode"),
   (("phy", "protocol"), "phy_protocol"),
   (("phy", "command_fifo_depth"), "phy_command_fifo_depth"),
   (("phy", "read_fifo_depth"), "phy_read_fifo_depth"),
   (("phy", "write_fifo_depth"), "phy_write_fifo_depth"),
   (("phy", "command_pipeline_cycles"), "phy_command_pipeline_cycles"),
   (("phy", "read_return_pipeline_cycles"), "phy_read_return_pipeline_cycles"),
   (("phy", "write_data_pipeline_cycles"), "phy_write_data_pipeline_cycles"),
   (("phy", "reset_cycles"), "phy_reset_cycles"),
   (("phy", "initialization_cycles"), "phy_initialization_cycles"),
   (("phy", "training_cycles"), "phy_training_cycles"),
   (("phy", "auto_train"), "phy_auto_train"),
   (("storage", "backend"), "memory_backend"),
   (("storage", "capacity_bytes"), "memory_capacity_bytes"),
   (("storage", "data_file"), "memory_data_file"),
   (("storage", "init_file"), "memory_init_file"),
   (("storage", "meta_file"), "memory_meta_file"),
   (("storage", "presence_file"), "memory_presence_file"),
   (("storage", "chunk_size"), "memory_chunk_size"),
   (("storage", "chunk_cache_entries"), "memory_chunk_cache_entries"),
   (("power", "enabled"), "power_model"),
   (("power", "source"), "power_source"),
   (("power", "scale"), "power_scale"),
   (("thermal", "enabled"), "thermal_model"),
   (("thermal", "ambient_c"), "thermal_ambient_c"),
   (("thermal", "cooling_per_cycle"), "thermal_cooling_per_cycle"),
   (("thermal", "rise_c_per_pj"), "thermal_rise_c_per_pj"),
   (("thermal", "lateral_coupling"), "thermal_lateral_coupling"),
   (("thermal", "vertical_coupling"), "thermal_vertical_coupling")]

/-- A section of timings: its own, a part of it, or the last part of a longer name. -/
def isTimingSection (name : String) : Bool :=
  decide (name = "timing") || startsWith name "timing." ||
    ((splitSection name).getLast?.any fun part => startsWith part "timing")

/-- `canonical_entry_key`: the name of the setting that a key stands for in its section. -/
def canonicalEntryKey (entry : ConfigEntry) : String :=
  if entry.key = "timing_source" then "timing_override_source"
  else
    match sectionAliases.lookup (entry.sectionName, entry.key) with
    | some canonical => canonical
    | none =>
      if isTimingSection entry.sectionName = true ∧ entry.key = "source" then
        "timing_override_source"
      else if isTimingSection entry.sectionName = true ∧ entry.key = "reference" then
        "parameter_reference"
      else entry.key

/-! ### Resolving -/

/-- The timing source of a section: the last one it names. -/
def sectionSource (document : ConfigDocument) (name : String) : Option String :=
  (document.entries.filter fun entry => decide (entry.sectionName = name ∧
    (canonicalEntryKey entry = "timing_source" ∨
      canonicalEntryKey entry = "timing_override_source"))).getLast?.map (·.value)

/-- `bind_source`. -/
def bindSource (document : ConfigDocument) (entry : ConfigEntry) : ConfigEntry :=
  { entry with
    timingSource := (sectionSource document entry.sectionName).getD entry.timingSource }

/-- The entries of active sections with their layers and their places in the document. -/
def stageEntries (document : ConfigDocument) (selection : Selection) :
    Nat → List ConfigEntry → Except Exception (List (Nat × ConfigEntry))
  | _, [] => .ok []
  | index, entry :: rest => do
    let (layer, active) ← sectionLayer entry.sectionName selection
    let more ← stageEntries document selection (index + 1) rest
    return if active then (index, { bindSource document entry with layer }) :: more else more

/-- The stable sort by layer and place. -/
def sortStaged (staged : List (Nat × ConfigEntry)) : List (Nat × ConfigEntry) :=
  Ranked.sort ConfigEntry.layer staged

/-- What an entry may be only once: its key in its layer, and for the source and the reference of
timings its key in its section. -/
def entryIdentity (entry : ConfigEntry) : Nat × String :=
  let key := canonicalEntryKey entry
  (entry.layer,
    if key = "timing_override_source" ∨ key = "parameter_reference" then
      entry.sectionName ++ ":" ++ key
    else key)

def canonicalEntry (entry : ConfigEntry) : ConfigEntry :=
  { entry with key := canonicalEntryKey entry }

/-- Give the entries their canonical keys; the second of an identity is refused. -/
def claimKeys (seen : List ((Nat × String) × ConfigEntry)) :
    List ConfigEntry → Except Exception (List ConfigEntry)
  | [] => .ok []
  | entry :: rest =>
    match seen.lookup (entryIdentity entry) with
    | some previous =>
      .error (runtimeError (entry.path ++ ":" ++ toString entry.line ++
        ": semantic duplicate key '" ++ canonicalEntryKey entry ++ "' at layer " ++
        toString entry.layer ++ " (already set by " ++ previous.path ++ ":" ++
        toString previous.line ++ ")"))
    | none => do
      let more ← claimKeys (seen ++ [(entryIdentity entry, canonicalEntry entry)]) rest
      return canonicalEntry entry :: more

def resolveDocument (document : ConfigDocument) (selection : Selection) :
    Except Exception (List ConfigEntry) :=
  if document.sectioned = false then
    .ok (document.entries.map fun entry => bindSource document { entry with layer := 40 })
  else do
    let staged ← stageEntries document selection 0 document.entries
    claimKeys [] ((sortStaged staged).map Prod.snd)

def resolveDocuments (documents : List ConfigDocument) (selection : Selection) :
    Except Exception (List ConfigEntry) := do
  let resolved ← documents.mapM fun document => resolveDocument document selection
  return (sortStaged (Ranked.placed resolved.flatten)).map Prod.snd

/-- The last value of a key, the one that takes effect. -/
def lastValue (entries : List ConfigEntry) (key : String) : Option String :=
  (entries.filter fun entry => decide (entry.key = key)).getLast?.map (·.value)

/-! ### What a document sets -/

section Document

variable {selection : Selection} {document : ConfigDocument} {entries : List ConfigEntry}

/-- The entry with its layer, if its section is active. -/
def activeEntry (document : ConfigDocument) (selection : Selection) (entry : ConfigEntry) :
    Option ConfigEntry :=
  match sectionLayer entry.sectionName selection with
  | .ok (layer, true) => some { bindSource document entry with layer }
  | _ => none

/-- The document sets a key to a value in a layer: in an active section under a name of the key, or,
without sections, under the key itself. -/
def ConfigDocument.Sets (document : ConfigDocument) (selection : Selection) (layer : Nat)
    (key value : String) : Prop :=
  ∃ entry ∈ document.entries, entry.value = value ∧
    if document.sectioned then
      sectionLayer entry.sectionName selection = .ok (layer, true) ∧ canonicalEntryKey entry = key
    else layer = 40 ∧ entry.key = key

/-- Every section of the entries is known. -/
def Known (selection : Selection) (entries : List ConfigEntry) : Prop :=
  ∀ entry ∈ entries, ∃ layered, sectionLayer entry.sectionName selection = .ok layered

theorem stageEntries_known {index : Nat} :
    (∃ staged, stageEntries document selection index entries = .ok staged) ↔
      Known selection entries := by
  induction entries generalizing index with
  | nil => exact ⟨fun _ entry member => (nomatch member), fun _ => ⟨[], rfl⟩⟩
  | cons entry rest inductionHypothesis =>
    constructor
    · rintro ⟨staged, stages⟩
      obtain ⟨layered, known, stages⟩ := bind_eq_ok.mp stages
      obtain ⟨more, others, -⟩ := bind_eq_ok.mp stages
      intro other member
      rcases List.mem_cons.mp member with rfl | later
      · exact ⟨layered, known⟩
      · exact inductionHypothesis.mp ⟨more, others⟩ other later
    · intro known
      obtain ⟨layered, here⟩ := known entry List.mem_cons_self
      obtain ⟨more, others⟩ := (@inductionHypothesis (index + 1)).mpr fun other member =>
        known other (List.mem_cons_of_mem _ member)
      exact ⟨_, bind_eq_ok.mpr ⟨layered, here, bind_eq_ok.mpr ⟨more, others, rfl⟩⟩⟩

/-- The staged entries are the active ones, in the order of their places. -/
theorem stageEntries_spec {index : Nat} {staged : List (Nat × ConfigEntry)}
    (stages : stageEntries document selection index entries = .ok staged) :
    staged.map Prod.snd = entries.filterMap (activeEntry document selection) ∧
      (∀ placed ∈ staged, index ≤ placed.1) ∧
      staged.Pairwise fun lhs rhs => lhs.1 < rhs.1 := by
  induction entries generalizing index staged with
  | nil =>
    cases stages
    exact ⟨rfl, fun _ member => (nomatch member), List.Pairwise.nil⟩
  | cons entry rest inductionHypothesis =>
    obtain ⟨⟨layer, active⟩, known, stages⟩ := bind_eq_ok.mp stages
    obtain ⟨more, others, returned⟩ := bind_eq_ok.mp stages
    obtain ⟨values, later, ordered⟩ := inductionHypothesis others
    cases active with
    | false =>
      cases returned
      have inactive : activeEntry document selection entry = none := by
        unfold activeEntry
        rw [known]
      rw [List.filterMap_cons_none inactive]
      exact ⟨values, fun placed member => Nat.le_of_succ_le (later placed member), ordered⟩
    | true =>
      have same : _ :: more = staged := Except.ok.inj returned
      subst same
      have active : activeEntry document selection entry =
          some { bindSource document entry with layer } := by
        unfold activeEntry
        rw [known]
      rw [List.filterMap_cons_some active, ← values]
      refine ⟨rfl, ?_, List.pairwise_cons.mpr ⟨later, ordered⟩⟩
      intro placed member
      rcases List.mem_cons.mp member with rfl | member
      · exact Nat.le_refl _
      · exact Nat.le_of_succ_le (later placed member)

/-- Keys are claimed exactly when no identity occurs twice. -/
theorem claimKeys_eq_ok {seen : List ((Nat × String) × ConfigEntry)} {claimed : List ConfigEntry} :
    claimKeys seen entries = .ok claimed ↔
      (entries.map entryIdentity).Nodup ∧
        (∀ entry ∈ entries, entryIdentity entry ∉ seen.map Prod.fst) ∧
        claimed = entries.map canonicalEntry := by
  induction entries generalizing seen claimed with
  | nil =>
    constructor
    · intro returned
      cases returned
      exact ⟨List.nodup_nil, fun _ member => (nomatch member), rfl⟩
    · rintro ⟨-, -, rfl⟩
      rfl
  | cons entry rest inductionHypothesis =>
    have fresh : seen.lookup (entryIdentity entry) = none ↔
        entryIdentity entry ∉ seen.map Prod.fst := by
      rw [List.lookup_eq_none_iff]
      simp only [List.mem_map, not_exists, not_and, bne_iff_ne, ne_eq]
      exact ⟨fun apart pair member same => apart pair member same.symm,
        fun apart pair member same => apart pair member same.symm⟩
    have extended : ∀ other : ConfigEntry,
        entryIdentity other ∉ (seen ++ [(entryIdentity entry, canonicalEntry entry)]).map Prod.fst ↔
          entryIdentity other ∉ seen.map Prod.fst ∧ entryIdentity other ≠ entryIdentity entry := by
      intro other
      rw [List.map_append, List.mem_append, not_or]
      exact and_congr_right' List.mem_singleton.not
    unfold claimKeys
    rw [List.map_cons, List.map_cons, List.nodup_cons]
    cases found : seen.lookup (entryIdentity entry) with
    | some previous =>
      refine ⟨fun absurd => (nomatch absurd), ?_⟩
      rintro ⟨-, apart, -⟩
      rw [fresh.mpr (apart entry List.mem_cons_self)] at found
      cases found
    | none =>
      dsimp only
      rw [bind_eq_ok]
      constructor
      · rintro ⟨more, claims, returned⟩
        cases returned
        obtain ⟨distinct, apart, rfl⟩ := inductionHypothesis.mp claims
        refine ⟨⟨?_, distinct⟩, ?_, rfl⟩
        · intro member
          obtain ⟨other, listed, same⟩ := List.mem_map.mp member
          exact ((extended other).mp (apart other listed)).2 same
        · intro other member
          rcases List.mem_cons.mp member with rfl | listed
          · exact fresh.mp found
          · exact ((extended other).mp (apart other listed)).1
      · rintro ⟨⟨alone, distinct⟩, apart, rfl⟩
        refine ⟨_, inductionHypothesis.mpr ⟨distinct, fun other listed => ?_, rfl⟩, rfl⟩
        refine (extended other).mpr ⟨apart other (List.mem_cons_of_mem _ listed), fun same => ?_⟩
        exact alone (same ▸ List.mem_map_of_mem listed)

/-- A document with sections is resolved when its sections are known and no identity is set twice;
the result is its active entries, in the order of their layers. -/
theorem resolveDocument_eq_ok (sectioned : document.sectioned = true)
    {resolved : List ConfigEntry} :
    resolveDocument document selection = .ok resolved ↔
      ∃ staged, stageEntries document selection 0 document.entries = .ok staged ∧
        ((document.entries.filterMap (activeEntry document selection)).map entryIdentity).Nodup ∧
        resolved = ((sortStaged staged).map Prod.snd).map canonicalEntry := by
  unfold resolveDocument
  rw [if_neg (by rw [sectioned]; exact Bool.noConfusion), bind_eq_ok]
  refine exists_congr fun staged => and_congr_right fun stages => ?_
  have order : ((sortStaged staged).map Prod.snd).Perm
      (document.entries.filterMap (activeEntry document selection)) := by
    rw [← (stageEntries_spec stages).1]
    exact (Ranked.sort_perm staged).map _
  rw [claimKeys_eq_ok, (order.map entryIdentity).nodup_iff]
  refine and_congr_right fun _ => ⟨fun both => both.2, fun same => ⟨?_, same⟩⟩
  exact fun _ _ member => (nomatch member)

theorem activeEntry_eq_some {entry active : ConfigEntry} :
    activeEntry document selection entry = some active ↔
      ∃ layer, sectionLayer entry.sectionName selection = .ok (layer, true) ∧
        active = { bindSource document entry with layer } := by
  unfold activeEntry
  split
  next layer known =>
    rw [known]
    constructor
    · intro same
      exact ⟨layer, rfl, (Option.some.inj same).symm⟩
    · rintro ⟨other, same, rfl⟩
      cases same
      rfl
  next other =>
    constructor
    · intro absurd
      cases absurd
    · rintro ⟨layer, known, -⟩
      exact absurd known (other layer)

/-- The entries of a resolved document are what it sets. -/
theorem mem_resolveDocument {resolved : List ConfigEntry}
    (returns : resolveDocument document selection = .ok resolved) (layer : Nat)
    (key value : String) :
    (∃ entry ∈ resolved, entry.layer = layer ∧ entry.key = key ∧ entry.value = value) ↔
      document.Sets selection layer key value := by
  unfold ConfigDocument.Sets
  cases sectioned : document.sectioned with
  | false =>
    unfold resolveDocument at returns
    rw [if_pos sectioned] at returns
    cases returns
    constructor
    · rintro ⟨entry, member, rfl, rfl, rfl⟩
      obtain ⟨source, listed, rfl⟩ := List.mem_map.mp member
      exact ⟨source, listed, rfl, rfl, rfl⟩
    · rintro ⟨source, listed, rfl, rfl, rfl⟩
      exact ⟨_, List.mem_map_of_mem listed, rfl, rfl, rfl⟩
  | true =>
    obtain ⟨staged, stages, -, rfl⟩ := (resolveDocument_eq_ok sectioned).mp returns
    have listed : ∀ active, active ∈ (sortStaged staged).map Prod.snd ↔
        ∃ source ∈ document.entries, activeEntry document selection source = some active := by
      intro active
      have order : ((sortStaged staged).map Prod.snd).Perm (staged.map Prod.snd) :=
        (Ranked.sort_perm staged).map _
      rw [order.mem_iff, (stageEntries_spec stages).1, List.mem_filterMap]
    constructor
    · rintro ⟨entry, member, rfl, rfl, rfl⟩
      obtain ⟨active, sorted, rfl⟩ := List.mem_map.mp member
      obtain ⟨source, stated, active⟩ := (listed active).mp sorted
      obtain ⟨layer, known, rfl⟩ := activeEntry_eq_some.mp active
      exact ⟨source, stated, rfl, known, rfl⟩
    · rintro ⟨source, member, rfl, known, rfl⟩
      exact ⟨_, List.mem_map_of_mem ((listed _).mpr
        ⟨source, member, activeEntry_eq_some.mpr ⟨layer, known, rfl⟩⟩), rfl, rfl, rfl⟩

/-- A layer of a resolved document with sections has a key only once, unless the key is the source
or the reference of timings. -/
theorem resolveDocument_unique (sectioned : document.sectioned = true)
    {resolved : List ConfigEntry} (returns : resolveDocument document selection = .ok resolved)
    {first second : ConfigEntry} (member : first ∈ resolved) (member' : second ∈ resolved)
    (layer : first.layer = second.layer) (key : first.key = second.key)
    (notSource : first.key ≠ "timing_override_source")
    (notReference : first.key ≠ "parameter_reference") : first = second := by
  obtain ⟨staged, stages, distinct, rfl⟩ := (resolveDocument_eq_ok sectioned).mp returns
  rw [← (stageEntries_spec stages).1] at distinct
  have identity : ∀ entry : ConfigEntry, canonicalEntryKey entry ≠ "timing_override_source" →
      canonicalEntryKey entry ≠ "parameter_reference" →
      entryIdentity entry = (entry.layer, canonicalEntryKey entry) := by
    intro entry notSource notReference
    unfold entryIdentity
    dsimp only
    rw [if_neg (not_or.mpr ⟨notSource, notReference⟩)]
  obtain ⟨source, sorted, rfl⟩ := List.mem_map.mp member
  obtain ⟨source', sorted', rfl⟩ := List.mem_map.mp member'
  have notSource' := key ▸ notSource
  have notReference' := key ▸ notReference
  have same : source = source' := by
    refine List.inj_on_of_nodup_map distinct
      (((Ranked.sort_perm staged).map Prod.snd).subset sorted)
      (((Ranked.sort_perm staged).map Prod.snd).subset sorted') ?_
    rw [identity source notSource notReference,
      identity source' notSource' notReference']
    exact Prod.ext layer key
  rw [same]

end Document

/-! ### What takes effect -/

section Documents

variable {selection : Selection} {documents documents' : List ConfigDocument}
variable {results results' : List (List ConfigEntry)} {resolved : List ConfigEntry}

/-- A document of the list sets a key to a value in a layer. -/
def Sets (documents : List ConfigDocument) (selection : Selection) (document layer : Nat)
    (key value : String) : Prop :=
  ∃ source, documents[document]? = some source ∧ source.Sets selection layer key value

/-- The last value of a key in a layer. -/
def lastAt (entries : List ConfigEntry) (layer : Nat) (key : String) : Option String :=
  ((entries.filter fun entry => decide (entry.layer = layer)).filter
    fun entry => decide (entry.key = key)).getLast?.map (·.value)

/-- The entry that gives the last value of a key in a layer. -/
theorem exists_of_lastAt {entries : List ConfigEntry} {layer : Nat} {key value : String}
    (last : lastAt entries layer key = some value) :
    ∃ entry ∈ entries, entry.layer = layer ∧ entry.key = key ∧ entry.value = value := by
  obtain ⟨entry, found, rfl⟩ := Option.map_eq_some_iff.mp last
  obtain ⟨inLayer, ofKey⟩ := List.mem_filter.mp (List.mem_of_getLast? found)
  obtain ⟨member, inLayer⟩ := List.mem_filter.mp inLayer
  exact ⟨entry, member, of_decide_eq_true inLayer, of_decide_eq_true ofKey, rfl⟩

theorem lastAt_ne_none_iff {entries : List ConfigEntry} {layer : Nat} {key : String} :
    lastAt entries layer key ≠ none ↔
      ∃ entry ∈ entries, entry.layer = layer ∧ entry.key = key := by
  constructor
  · intro some
    obtain ⟨value, last⟩ := Option.ne_none_iff_exists'.mp some
    obtain ⟨entry, member, inLayer, ofKey, -⟩ := exists_of_lastAt last
    exact ⟨entry, member, inLayer, ofKey⟩
  · rintro ⟨entry, member, rfl, rfl⟩ none
    have empty := List.getLast?_eq_none_iff.mp (Option.map_eq_none_iff.mp none)
    have listed : entry ∈ (entries.filter fun other => decide (other.layer = entry.layer)).filter
        fun other => decide (other.key = entry.key) :=
      List.mem_filter.mpr ⟨List.mem_filter.mpr ⟨member, decide_eq_true rfl⟩, decide_eq_true rfl⟩
    rw [empty] at listed
    cases listed

/-- Of two lists of entries the second decides, where it has the key. -/
theorem lastAt_append (front back : List ConfigEntry) (layer : Nat) (key : String) :
    lastAt (front ++ back) layer key = (lastAt back layer key).or (lastAt front layer key) := by
  unfold lastAt
  rw [List.filter_append, List.filter_append, List.getLast?_append, Option.map_or]

/-- The results of the documents. -/
def Resolved (selection : Selection) (documents : List ConfigDocument)
    (results : List (List ConfigEntry)) : Prop :=
  List.Forall₂ (fun document result => resolveDocument document selection = .ok result)
    documents results

theorem mapM_resolveDocument :
    (documents.mapM fun document => resolveDocument document selection) = .ok results ↔
      Resolved selection documents results := by
  unfold Resolved
  induction documents generalizing results with
  | nil =>
    rw [List.mapM_nil, List.forall₂_nil_left_iff]
    exact ⟨fun same => (Except.ok.inj same).symm, fun same => congrArg Except.ok same.symm⟩
  | cons document rest inductionHypothesis =>
    rw [List.mapM_cons, List.forall₂_cons_left_iff, bind_eq_ok]
    refine exists_congr fun result => ?_
    constructor
    · rintro ⟨here, later⟩
      obtain ⟨more, others, returned⟩ := bind_eq_ok.mp later
      exact ⟨more, here, inductionHypothesis.mp others, (Except.ok.inj returned).symm⟩
    · rintro ⟨more, here, others, rfl⟩
      exact ⟨here, bind_eq_ok.mpr ⟨more, inductionHypothesis.mpr others, rfl⟩⟩

theorem resolveDocuments_eq_ok :
    resolveDocuments documents selection = .ok resolved ↔
      ∃ results, Resolved selection documents results ∧
        resolved = (sortStaged (Ranked.placed results.flatten)).map Prod.snd := by
  unfold resolveDocuments
  rw [bind_eq_ok]
  refine exists_congr fun results => ?_
  rw [mapM_resolveDocument]
  exact and_congr_right fun _ => ⟨fun same => (Except.ok.inj same).symm,
    fun same => congrArg Except.ok same.symm⟩

theorem mem_sorted {entries : List ConfigEntry} {entry : ConfigEntry} :
    entry ∈ (sortStaged (Ranked.placed entries)).map Prod.snd ↔ entry ∈ entries := by
  have order : ((sortStaged (Ranked.placed entries)).map Prod.snd).Perm
      ((Ranked.placed entries).map Prod.snd) := (Ranked.sort_perm _).map _
  rw [order.mem_iff, Ranked.map_snd_placed]

theorem lastAt_of_lastValue_none {entries : List ConfigEntry} {key : String}
    (none : lastValue ((sortStaged (Ranked.placed entries)).map Prod.snd) key = none)
    (layer : Nat) : lastAt entries layer key = .none := by
  by_contra some
  obtain ⟨entry, member, -, ofKey⟩ := lastAt_ne_none_iff.mp some
  have empty := List.getLast?_eq_none_iff.mp (Option.map_eq_none_iff.mp none)
  have listed : entry ∈ ((sortStaged (Ranked.placed entries)).map Prod.snd).filter
      fun other => decide (other.key = key) :=
    List.mem_filter.mpr ⟨mem_sorted.mpr member, decide_eq_true ofKey⟩
  rw [empty] at listed
  cases listed

/-- The value that takes effect is the last one of the highest layer that has the key. -/
theorem lastValue_eq_some_iff {entries : List ConfigEntry} {key value : String} :
    lastValue ((sortStaged (Ranked.placed entries)).map Prod.snd) key = some value ↔
      ∃ layer, lastAt entries layer key = some value ∧
        ∀ layer', lastAt entries layer' key ≠ none → layer' ≤ layer := by
  have ordered := @Ranked.pairwise_rank _ ConfigEntry.layer (Ranked.placed entries)
  have layers : ∀ layer, ((sortStaged (Ranked.placed entries)).map Prod.snd).filter
        (fun entry => decide (entry.layer = layer)) =
      entries.filter fun entry => decide (entry.layer = layer) := by
    intro layer
    refine (Ranked.filter_sort (Ranked.pairwise_placed entries) layer).trans ?_
    rw [Ranked.map_snd_placed]
  have last : ∀ entry, ((((sortStaged (Ranked.placed entries)).map Prod.snd).filter
        fun entry => decide (entry.key = key)).getLast? = some entry) ↔
      (((entries.filter fun other => decide (other.layer = entry.layer)).filter
          fun entry => decide (entry.key = key)).getLast? = some entry ∧
        ∀ other ∈ entries, other.key = key → other.layer ≤ entry.layer) := by
    intro entry
    refine (Ranked.getLast?_filter_eq_some_iff ordered _ entry).trans ?_
    refine and_congr (Eq.congr_left (congrArg _ (congrArg _ (layers entry.layer)))) ?_
    exact forall_congr' fun other => imp_congr mem_sorted (by rw [decide_eq_true_eq])
  constructor
  · intro effective
    obtain ⟨entry, found, rfl⟩ := Option.map_eq_some_iff.mp effective
    obtain ⟨inLayer, highest⟩ := (last entry).mp found
    refine ⟨entry.layer, Option.map_eq_some_iff.mpr ⟨entry, inLayer, rfl⟩, ?_⟩
    intro layer' some
    obtain ⟨other, member, rfl, key⟩ := lastAt_ne_none_iff.mp some
    exact highest other member key
  · rintro ⟨layer, effective, highest⟩
    obtain ⟨entry, found, rfl⟩ := Option.map_eq_some_iff.mp effective
    have member := List.mem_of_mem_filter (List.mem_of_getLast? found)
    obtain rfl : entry.layer = layer := of_decide_eq_true (List.mem_filter.mp member).2
    refine Option.map_eq_some_iff.mpr ⟨entry, (last entry).mpr ⟨found, ?_⟩, rfl⟩
    intro other member key
    exact highest other.layer (lastAt_ne_none_iff.mpr ⟨other, member, rfl, key⟩)

theorem sets_zero {document : ConfigDocument} {layer : Nat} {key value : String} :
    Sets (document :: documents) selection 0 layer key value ↔
      document.Sets selection layer key value := by
  constructor
  · rintro ⟨source, listed, sets⟩
    obtain rfl : document = source := Option.some.inj listed
    exact sets
  · exact fun sets => ⟨document, rfl, sets⟩

theorem sets_succ {document : ConfigDocument} {index layer : Nat} {key value : String} :
    Sets (document :: documents) selection (index + 1) layer key value ↔
      Sets documents selection index layer key value := Iff.rfl

/-- The value that a list of documents leaves in a layer is one that the latest document with the
key sets there. -/
theorem Resolved.lastAt_flatten (resolved : Resolved selection documents results)
    (layer : Nat) (key : String) :
    (lastAt results.flatten layer key = none →
        ∀ index value, ¬ Sets documents selection index layer key value) ∧
      ∀ value, lastAt results.flatten layer key = some value →
        ∃ index, Sets documents selection index layer key value ∧
          ∀ later value', Sets documents selection later layer key value' → later ≤ index := by
  induction resolved with
  | nil =>
    refine ⟨?_, fun value absurd => (nomatch absurd)⟩
    rintro - index value ⟨document, listed, -⟩
    cases listed
  | @cons document result rest more returns _ inductionHypothesis =>
    obtain ⟨unset, latest⟩ := inductionHypothesis
    rw [List.flatten_cons, lastAt_append]
    constructor
    · intro none index value sets
      obtain ⟨later, here⟩ := Option.or_eq_none_iff.mp none
      cases index with
      | zero =>
        obtain ⟨entry, member, inLayer, ofKey, -⟩ :=
          (mem_resolveDocument returns layer key value).mpr (sets_zero.mp sets)
        exact lastAt_ne_none_iff.mpr ⟨entry, member, inLayer, ofKey⟩ here
      | succ index => exact unset later index value (sets_succ.mp sets)
    · intro value found
      cases later : lastAt more.flatten layer key with
      | some value' =>
        rw [later, Option.some_or] at found
        obtain ⟨index, sets, last⟩ := latest value (later.trans found)
        refine ⟨index + 1, sets_succ.mpr sets, fun other value' sets' => ?_⟩
        cases other with
        | zero => exact Nat.zero_le _
        | succ other => exact Nat.succ_le_succ (last other value' (sets_succ.mp sets'))
      | none =>
        rw [later, Option.none_or] at found
        refine ⟨0, sets_zero.mpr ?_, fun other value' sets' => ?_⟩
        · exact (mem_resolveDocument returns layer key value).mp (exists_of_lastAt found)
        · cases other with
          | zero => exact Nat.le_refl _
          | succ other => exact absurd (sets_succ.mp sets') (unset later other value')

end Documents

/-! ### The order of the sections -/

section Rearranged

variable {selection : Selection} {document document' : ConfigDocument}
variable {documents documents' : List ConfigDocument} {results results' : List (List ConfigEntry)}

/-- An entry as it is written, wherever it stands. -/
def ConfigEntry.bare (entry : ConfigEntry) : ConfigEntry :=
  { key := entry.key, value := entry.value, sectionName := entry.sectionName }

/-- The same document with its sections in another order; a document without sections is left as it
is. -/
def Rearranged (document document' : ConfigDocument) : Prop :=
  document.sectioned = document'.sectioned ∧
    if document.sectioned then
      (document.entries.map ConfigEntry.bare).Perm (document'.entries.map ConfigEntry.bare)
    else document.entries = document'.entries

theorem Rearranged.symm (same : Rearranged document document') :
    Rearranged document' document := by
  obtain ⟨sectioned, entries⟩ := same
  refine ⟨sectioned.symm, ?_⟩
  rw [← sectioned]
  split at entries
  next inSections =>
    rw [if_pos inSections]
    exact entries.symm
  next flat =>
    rw [if_neg flat]
    exact entries.symm

/-- The identities of the active entries, from the entries as they are written. -/
theorem map_entryIdentity (document : ConfigDocument) (entries : List ConfigEntry) :
    (entries.filterMap (activeEntry document selection)).map entryIdentity =
      (entries.map ConfigEntry.bare).filterMap fun entry =>
        (activeEntry {} selection entry).map entryIdentity := by
  rw [List.map_filterMap, List.filterMap_map]
  refine congrArg (fun choose => entries.filterMap choose) (funext fun entry => ?_)
  show (activeEntry document selection entry).map entryIdentity =
    (activeEntry {} selection entry.bare).map entryIdentity
  unfold activeEntry
  show _ = Option.map _ (match sectionLayer entry.sectionName selection with
    | .ok (layer, true) => _ | _ => _)
  split <;> rfl

/-- A document with sections is resolved exactly when its sections are known and no identity is set
twice. -/
theorem resolveDocument_succeeds (sectioned : document.sectioned = true) :
    (∃ resolved, resolveDocument document selection = .ok resolved) ↔
      Known selection (document.entries.map ConfigEntry.bare) ∧
        ((document.entries.map ConfigEntry.bare).filterMap fun entry =>
          (activeEntry {} selection entry).map entryIdentity).Nodup := by
  rw [← map_entryIdentity document]
  constructor
  · rintro ⟨resolved, returns⟩
    obtain ⟨staged, stages, distinct, -⟩ := (resolveDocument_eq_ok sectioned).mp returns
    exact ⟨List.forall_mem_map.mpr (stageEntries_known.mp ⟨staged, stages⟩), distinct⟩
  · rintro ⟨known, distinct⟩
    have known : Known selection document.entries :=
      fun entry member => known entry.bare (List.mem_map_of_mem member)
    obtain ⟨staged, stages⟩ := (@stageEntries_known _ document _ 0).mpr known
    exact ⟨_, (resolveDocument_eq_ok sectioned).mpr ⟨staged, stages, distinct, rfl⟩⟩

/-- The last value of a key in a layer of a document with sections is the one it sets. -/
theorem lastAt_resolveDocument (sectioned : document.sectioned = true)
    {resolved : List ConfigEntry} (returns : resolveDocument document selection = .ok resolved)
    {layer : Nat} {key value : String} (notSource : key ≠ "timing_override_source")
    (notReference : key ≠ "parameter_reference") :
    lastAt resolved layer key = some value ↔ document.Sets selection layer key value := by
  rw [← mem_resolveDocument returns]
  constructor
  · exact exists_of_lastAt
  · rintro ⟨entry, member, rfl, rfl, rfl⟩
    have some : lastAt resolved entry.layer entry.key ≠ none :=
      lastAt_ne_none_iff.mpr ⟨entry, member, rfl, rfl⟩
    obtain ⟨value, last⟩ := Option.ne_none_iff_exists'.mp some
    obtain ⟨other, member', inLayer, ofKey, rfl⟩ := exists_of_lastAt last
    rw [last, resolveDocument_unique sectioned returns member member' inLayer.symm ofKey.symm
      notSource notReference]

theorem Rearranged.sets (same : Rearranged document document') {layer : Nat} {key value : String}
    (sets : document.Sets selection layer key value) :
    document'.Sets selection layer key value := by
  obtain ⟨sectioned, entries⟩ := same
  obtain ⟨entry, member, rfl, placed⟩ := sets
  unfold ConfigDocument.Sets
  rw [← sectioned]
  split at entries
  next inSections =>
    rw [if_pos inSections] at placed
    obtain ⟨entry', member', bare⟩ :=
      List.mem_map.mp (entries.subset (List.mem_map_of_mem member))
    have sameSection : entry'.bare.sectionName = entry.bare.sectionName := by rw [bare]
    have sameKey : canonicalEntryKey entry'.bare = canonicalEntryKey entry.bare := by rw [bare]
    have sameValue : entry'.bare.value = entry.bare.value := by rw [bare]
    refine ⟨entry', member', sameValue, ?_⟩
    rw [if_pos inSections]
    exact ⟨(congrArg (sectionLayer · selection) sameSection).trans placed.1,
      sameKey.trans placed.2⟩
  next flat =>
    exact ⟨entry, entries ▸ member, rfl, placed⟩

/-- Rearranging a document leaves its success and the values of every layer. -/
theorem Rearranged.resolveDocument (same : Rearranged document document')
    {resolved : List ConfigEntry}
    (returns : Config.resolveDocument document selection = .ok resolved) :
    ∃ resolved', Config.resolveDocument document' selection = .ok resolved' ∧
      ∀ layer key, key ≠ "timing_override_source" → key ≠ "parameter_reference" →
        lastAt resolved layer key = lastAt resolved' layer key := by
  cases sectioned : document.sectioned with
  | true =>
    have sectioned' : document'.sectioned = true := same.1 ▸ sectioned
    have entries := same.2
    rw [if_pos sectioned] at entries
    obtain ⟨known, distinct⟩ := (resolveDocument_succeeds sectioned).mp ⟨resolved, returns⟩
    obtain ⟨resolved', returns'⟩ := (resolveDocument_succeeds sectioned').mpr
      ⟨fun entry member => known entry (entries.mem_iff.mpr member),
        ((entries.filterMap _).nodup_iff).mp distinct⟩
    refine ⟨resolved', returns', fun layer key notSource notReference => ?_⟩
    refine Option.ext fun value => ?_
    rw [lastAt_resolveDocument sectioned returns notSource notReference,
      lastAt_resolveDocument sectioned' returns' notSource notReference]
    exact ⟨same.sets, same.symm.sets⟩
  | false =>
    have entries := same.2
    rw [sectioned, if_neg Bool.noConfusion] at entries
    obtain rfl : document = document' := by
      cases document
      cases document'
      exact congrArg₂ ConfigDocument.mk same.1 entries
    exact ⟨resolved, returns, fun _ _ _ _ => rfl⟩

theorem Resolved.rearranged (same : List.Forall₂ Rearranged documents documents')
    (resolved : Resolved selection documents results) :
    ∃ results', Resolved selection documents' results' ∧
      ∀ layer key, key ≠ "timing_override_source" → key ≠ "parameter_reference" →
        lastAt results.flatten layer key = lastAt results'.flatten layer key := by
  induction same generalizing results with
  | nil =>
    cases resolved
    exact ⟨[], List.Forall₂.nil, fun _ _ _ _ => rfl⟩
  | cons here _ inductionHypothesis =>
    obtain ⟨result, more, returns, others, rfl⟩ := List.forall₂_cons_left_iff.mp resolved
    obtain ⟨result', returns', values⟩ := here.resolveDocument returns
    obtain ⟨more', others', values'⟩ := inductionHypothesis others
    refine ⟨result' :: more', List.Forall₂.cons returns' others', ?_⟩
    intro layer key notSource notReference
    rw [List.flatten_cons, List.flatten_cons, lastAt_append, lastAt_append,
      values layer key notSource notReference, values' layer key notSource notReference]

/-- Of a list of documents that is resolved, the value of a key that takes effect is one that a
document sets, in the highest layer that has the key and there by the latest document with it; a
key without a value is set nowhere. Rearranging the sections of documents leaves success and, except
for the source and the reference of timings, the values that take effect. -/
theorem layering_decides (selection : Selection) :
    (∀ documents resolved, resolveDocuments documents selection = .ok resolved → ∀ key,
      (lastValue resolved key = none →
        ∀ document layer value, ¬ Sets documents selection document layer key value) ∧
      ∀ value, lastValue resolved key = some value →
        ∃ document layer, Sets documents selection document layer key value ∧
          ∀ document' layer' value', Sets documents selection document' layer' key value' →
            layer' < layer ∨ (layer' = layer ∧ document' ≤ document)) ∧
    ∀ documents documents', List.Forall₂ Rearranged documents documents' →
      ((∃ resolved, resolveDocuments documents selection = .ok resolved) ↔
        ∃ resolved, resolveDocuments documents' selection = .ok resolved) ∧
      ∀ resolved resolved', resolveDocuments documents selection = .ok resolved →
        resolveDocuments documents' selection = .ok resolved' →
        ∀ key, key ≠ "timing_override_source" → key ≠ "parameter_reference" →
          lastValue resolved key = lastValue resolved' key := by
  have same_symm : ∀ {documents documents'}, List.Forall₂ Rearranged documents documents' →
      List.Forall₂ Rearranged documents' documents :=
    fun same => same.flip.imp fun _ _ same => Rearranged.symm same
  have kept : ∀ {documents documents' resolved}, List.Forall₂ Rearranged documents documents' →
      resolveDocuments documents selection = .ok resolved →
      ∃ resolved', resolveDocuments documents' selection = .ok resolved' ∧
        ∀ key, key ≠ "timing_override_source" → key ≠ "parameter_reference" →
          lastValue resolved key = lastValue resolved' key := by
    intro documents documents' resolved same returns
    obtain ⟨results, resolves, rfl⟩ := resolveDocuments_eq_ok.mp returns
    obtain ⟨results', resolves', values⟩ := resolves.rearranged same
    refine ⟨_, resolveDocuments_eq_ok.mpr ⟨results', resolves', rfl⟩, ?_⟩
    intro key notSource notReference
    refine Option.ext fun value => ?_
    rw [lastValue_eq_some_iff, lastValue_eq_some_iff]
    simp only [fun layer => values layer key notSource notReference]
  refine ⟨?_, ?_⟩
  · intro documents resolved returns key
    obtain ⟨results, resolves, rfl⟩ := resolveDocuments_eq_ok.mp returns
    constructor
    · intro none document layer value sets
      have unset := lastAt_of_lastValue_none none layer
      exact (resolves.lastAt_flatten layer key).1 unset document value sets
    · intro value effective
      obtain ⟨layer, last, highest⟩ := lastValue_eq_some_iff.mp effective
      obtain ⟨document, sets, latest⟩ := (resolves.lastAt_flatten layer key).2 value last
      refine ⟨document, layer, sets, fun document' layer' value' sets' => ?_⟩
      have atMost : layer' ≤ layer := highest layer' fun none =>
        (resolves.lastAt_flatten layer' key).1 none document' value' sets'
      rcases Nat.lt_or_eq_of_le atMost with below | rfl
      · exact Or.inl below
      · exact Or.inr ⟨rfl, latest document' value' sets'⟩
  · intro documents documents' same
    refine ⟨⟨fun ⟨_, returns⟩ => ?_, fun ⟨_, returns⟩ => ?_⟩, ?_⟩
    · obtain ⟨resolved', returns', -⟩ := kept same returns
      exact ⟨resolved', returns'⟩
    · obtain ⟨resolved', returns', -⟩ := kept (same_symm same) returns
      exact ⟨resolved', returns'⟩
    · intro resolved resolved' returns returns'
      obtain ⟨resolved'', again, values⟩ := kept same returns
      obtain rfl : resolved'' = resolved' := Except.ok.inj (again.symm.trans returns')
      exact values

end Rearranged

/-- A document for every family. The timing that HBM4 sets for itself is in a higher layer. -/
def baseDocument : ConfigDocument where
  sectioned := true
  entries := [
    { key := "type", value := "frfcfs", sectionName := "controller.scheduler", line := 2 },
    { key := "nRCD", value := "20", sectionName := "standard.hbm4.timing", line := 4 },
    { key := "nRCD", value := "14", sectionName := "timing", line := 6 }]

/-- The same document with its sections in another order. -/
def turnedDocument : ConfigDocument where
  sectioned := true
  entries := [
    { key := "nRCD", value := "14", sectionName := "timing", line := 2 },
    { key := "type", value := "frfcfs", sectionName := "controller.scheduler", line := 4 },
    { key := "nRCD", value := "20", sectionName := "standard.hbm4.timing", line := 6 }]

/-- A later document, which names the scheduler another way and the timing in a lower layer. -/
def boardDocument : ConfigDocument where
  sectioned := true
  entries := [
    { key := "scheduler", value := "fcfs", sectionName := "controller", line := 2 },
    { key := "nRCD", value := "16", sectionName := "timing", line := 4 },
    { key := "source", value := "vendor", sectionName := "timing", line := 5 }]

theorem layering_decides_boardDocument : ∃ resolved resolved',
    resolveDocuments [baseDocument, boardDocument] {} = .ok resolved ∧
      resolveDocuments [turnedDocument, boardDocument] {} = .ok resolved' ∧
      lastValue resolved "scheduler" = some "fcfs" ∧ lastValue resolved "nRCD" = some "20" ∧
      (∃ document layer, Sets [baseDocument, boardDocument] {} document layer "nRCD" "20" ∧
        ∀ document' layer' value',
          Sets [baseDocument, boardDocument] {} document' layer' "nRCD" value' →
            layer' < layer ∨ (layer' = layer ∧ document' ≤ document)) ∧
      lastValue resolved "nRCD" = lastValue resolved' "nRCD" := by
  have computed : (do
      let resolved ← resolveDocuments [baseDocument, boardDocument] {}
      let _ ← resolveDocuments [turnedDocument, boardDocument] {}
      return (lastValue resolved "scheduler", lastValue resolved "nRCD")) =
      (.ok (some "fcfs", some "20") : Except Exception _) := by
    decide +kernel
  obtain ⟨resolved, returns, computed⟩ := bind_eq_ok.mp computed
  obtain ⟨resolved', returns', computed⟩ := bind_eq_ok.mp computed
  obtain ⟨scheduler, timing⟩ := Prod.mk.inj (Except.ok.inj computed)
  have turned : List.Forall₂ Rearranged [baseDocument, boardDocument]
      [turnedDocument, boardDocument] :=
    .cons ⟨rfl, by decide +kernel⟩ (.cons ⟨rfl, by decide +kernel⟩ .nil)
  refine ⟨resolved, resolved', returns, returns', scheduler, timing, ?_, ?_⟩
  · exact ((layering_decides {}).1 _ resolved returns "nRCD").2 "20" timing
  · exact ((layering_decides {}).2 _ _ turned).2 resolved resolved' returns returns' "nRCD"
      (by decide) (by decide)
end HbmSim.Config
