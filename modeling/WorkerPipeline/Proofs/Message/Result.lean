import WorkerPipeline.Message.Output
import WorkerPipeline.Proofs.Message.Completion

set_option autoImplicit false

/-! # Outputs as results

A result is handed out as a free JSON object. It has the fields that the output declares, with their
values, and the decoded extra data in the place of the block (`exists_shows`). What is declared is
listed here by name and value for each kind of output (`Output.declared`) and for the extra data
(`Extra.declared`); the records that write an output have no part in the lists.
-/

namespace WorkerPipeline

/-! ## Members in order -/

namespace Entries

variable {κ ν : Type} [Key κ]

/-- The entries are those of a list, in the order of their keys. -/
structure Arranges (m l : List (κ × ν)) : Prop where
  sorted : Sorted m
  mem_iff : ∀ e, e ∈ m ↔ e ∈ l

/-- Where no key repeats, all entries that are inserted are kept. -/
theorem arranges_insertAll {l : List (κ × ν)} (hn : (l.map Prod.fst).Nodup) :
    Arranges (insertAll l) l where
  sorted := sorted_insertAll l
  mem_iff e := by
    refine ⟨mem_insertAll, fun he => mem_of_find ?_⟩
    have hreverse : (l.reverse.map Prod.fst).Nodup := by
      rw [List.map_reverse]
      exact List.nodup_reverse.mpr hn
    rw [find_insertAll]
    exact find_of_mem_of_nodup hreverse (List.mem_reverse.mpr he)

/-- Entries can be arranged in one way. -/
theorem Arranges.unique {m m' l : List (κ × ν)} (h : Arranges m l) (h' : Arranges m' l) :
    m = m' := by
  refine ext h.sorted h'.sorted fun q => Option.ext fun v => ?_
  constructor
  · exact fun hv => find_of_mem h'.sorted ((h'.mem_iff _).mpr ((h.mem_iff _).mp (mem_of_find hv)))
  · exact fun hv => find_of_mem h.sorted ((h.mem_iff _).mpr ((h'.mem_iff _).mp (mem_of_find hv)))

end Entries

/-! ## Declared fields -/

namespace Json

/-- A task; its iteration comes first in the order of the names. -/
def ofTask : Option TaskId → Json
  | none => .null
  | some t => .obj [("iteration_id", .num (.int t.iteration.toNat)),
      ("problem_id", .num (.int t.problem.toNat))]

def ofTexts (l : List String) : Json := .arr (l.map .str)

def ofWord (n : UInt32) : Json := .num (.int n.toNat)

/-- A double; one that is not finite has no number in JSON. -/
def ofDouble (x : Binary64) : Json := if x.isFinite then .num (.float x) else .null

end Json

open Json (ofTask ofTexts ofWord ofDouble)

/-- The interpreted fields of the extra data, with their values as far as they have any. -/
def Extra.interpreted (e : Extra) : List (String × Option Json) := [
  ("hardware_required", e.hardwareRequired.map .str),
  ("max_memory_footprint", e.maxMemoryFootprint.map ofWord),
  ("goal", e.goal.map .str),
  ("num_outputs", e.numOutputs.map ofWord),
  ("model_restrains", if e.modelRestrains.isEmpty then none else some (ofTexts e.modelRestrains)),
  ("previous_problem_id", e.previousProblem.map ofWord),
  ("type", e.datasetType.map .str),
  ("dataset_path", e.datasetPath.map .str)]

/-- The interpreted fields that have a value, and the other members. -/
def Extra.declared (e : Extra) : List (String × Json) :=
  e.interpreted.filterMap (fun (name, value) => value.map fun j => (name, j)) ++ e.other.members

/-- The fields of an output, apart from its extra data. -/
def Output.declared : Output → List (String × Json)
  | appRequirements o => [
      ("task_id", ofTask o.task),
      ("app_requirements", ofTexts o.requirements)]
  | carbonFootprint o => [
      ("task_id", ofTask o.task),
      ("carbon_footprint", ofDouble o.footprint),
      ("energy_consumption", ofDouble o.energyConsumption),
      ("carbon_intensity", ofDouble o.intensity)]
  | hwConstraints o => [
      ("task_id", ofTask o.task),
      ("max_memory_footprint", ofWord o.maxMemoryFootprint)]
  | hwResource o => [
      ("task_id", ofTask o.task),
      ("hw_description", .str o.description),
      ("power_consumption", ofDouble o.powerConsumption),
      ("latency", ofDouble o.latency),
      ("memory_footprint_of_ml_model", ofDouble o.modelFootprint),
      ("max_hw_memory_footprint", ofDouble o.maxFootprint)]
  | mlModelMetadata o => [
      ("task_id", ofTask o.task),
      ("keywords", ofTexts o.keywords),
      ("ml_model_metadata", ofTexts o.metadata)]
  | mlModel o => [
      ("task_id", ofTask o.task),
      ("model", .str o.model),
      ("model_path", .str o.path),
      ("model_properties", .str o.properties),
      ("model_properties_path", .str o.propertiesPath),
      ("input_batch", ofTexts o.inputBatch),
      ("target_latency", ofDouble o.targetLatency)]
  | userInput u => [
      ("task_id", ofTask u.task),
      ("modality", .str u.brief.modality),
      ("problem_short_description", .str u.brief.shortDescription),
      ("problem_definition", .str u.brief.definition),
      ("inputs", ofTexts u.brief.inputs),
      ("outputs", ofTexts u.brief.outputs),
      ("minimum_samples", ofWord u.brief.minimumSamples),
      ("maximum_samples", ofWord u.brief.maximumSamples),
      ("optimize_carbon_footprint_manual", .bool u.brief.optimizeManually),
      ("previous_iteration", ofWord u.previousIteration),
      ("optimize_carbon_footprint_auto", .bool u.brief.optimizeAutomatically),
      ("desired_carbon_footprint", ofDouble u.brief.desiredFootprint),
      ("geo_location_continent", .str u.brief.continent),
      ("geo_location_region", .str u.brief.region)]

/-- The members show an output with its extra data decoded: they are the fields of the output with
their values and the extra data as an object, in the order of the names, and no kind. -/
structure Output.Shows (o : Output) (e : Extra) (m : List (String × Json)) : Prop where
  members : ∃ x, Entries.Arranges x e.declared ∧
    Entries.Arranges m (o.declared ++ [("extra_data", .obj x)])
  kind : "kind" ∉ m.map Prod.fst

namespace Output.Shows

variable {o : Output} {e : Extra} {m m' : List (String × Json)}

theorem mem_of_declared (h : o.Shows e m) {f : String × Json} (hf : f ∈ o.declared) : f ∈ m := by
  obtain ⟨x, -, hm⟩ := h.members
  exact (hm.mem_iff f).mpr (List.mem_append_left _ hf)

/-- An output with its extra data is shown in one way. -/
theorem unique (h : o.Shows e m) (h' : o.Shows e m') : m = m' := by
  obtain ⟨x, hx, hm⟩ := h.members
  obtain ⟨x', hx', hm'⟩ := h'.members
  rw [hx'.unique hx] at hm'
  exact hm.unique hm'

end Output.Shows

/-! ## Values that can be read -/

namespace Json

theorem freeMembers?_of_readable {m : List (String × Json)} (h : ∀ e ∈ m, e.2.isReadable = true) :
    freeMembers? m = some (m.map fun e => (e.1, e.2.canonical)) := by
  induction m with
  | nil => rfl
  | cons e m ih =>
      obtain ⟨he, hm⟩ := List.forall_mem_cons.mp h
      obtain ⟨name, j⟩ := e
      obtain ⟨k, hk⟩ := Option.isSome_iff_exists.mp he
      rw [freeMembers?, ih hm, freeMember?, List.map_cons, canonical, hk]
      rfl

theorem freeMembers?_eq_some_iff {m k : List (String × Json)} :
    freeMembers? m = some k ↔
      (∀ e ∈ m, e.2.isReadable = true) ∧ k = m.map fun e => (e.1, e.2.canonical) := by
  refine ⟨fun h => ?_, fun h => h.2 ▸ freeMembers?_of_readable h.1⟩
  have hreadable : ∀ e ∈ m, e.2.isReadable = true := by
    induction m generalizing k with
    | nil => exact fun e he => absurd he List.not_mem_nil
    | cons e m ih =>
        obtain ⟨name, j⟩ := e
        simp only [freeMembers?, freeMember?, Option.pure_def, Option.bind_eq_bind,
          Option.bind_eq_some_iff] at h
        obtain ⟨_, ⟨j', hj, ⟨⟩⟩, m', hm, -⟩ := h
        refine List.forall_mem_cons.mpr ⟨?_, ih hm⟩
        rw [isReadable, hj]
        rfl
  rw [freeMembers?_of_readable hreadable] at h
  exact ⟨hreadable, (Option.some.inj h).symm⟩

theorem freeMembers?_append {l l' m m' : List (String × Json)} (hl : freeMembers? l = some l')
    (hm : freeMembers? m = some m') : freeMembers? (l ++ m) = some (l' ++ m') := by
  obtain ⟨hlreadable, rfl⟩ := freeMembers?_eq_some_iff.mp hl
  obtain ⟨hmreadable, rfl⟩ := freeMembers?_eq_some_iff.mp hm
  rw [← List.map_append]
  exact freeMembers?_of_readable fun e he =>
    (List.mem_append.mp he).elim (hlreadable e) (hmreadable e)

theorem names_of_freeMembers? {m k : List (String × Json)} (h : freeMembers? m = some k) :
    k.map Prod.fst = m.map Prod.fst := by
  rw [(freeMembers?_eq_some_iff.mp h).2, List.map_map]
  rfl

theorem isReadable_obj {m : List (String × Json)} (h : ∀ e ∈ m, e.2.isReadable = true) :
    (obj m).isReadable = true := by
  rw [isReadable, free?, freeMembers?_of_readable h]
  rfl

theorem isReadable_of_free {j : Json} (h : j.Free) : j.isReadable = true := by
  rw [isReadable, free?_of_free h]
  rfl

theorem free_arr_map {α : Type} {f : α → Json} (hf : ∀ a, (f a).Free) (l : List α) :
    (arr (l.map f)).Free := by
  induction l with
  | nil => trivial
  | cons a l ih => exact ⟨hf a, ih⟩

theorem free_ofTexts (l : List String) : (ofTexts l).Free :=
  free_arr_map (f := str) (fun _ => trivial) l

theorem free_ofDouble (x : Binary64) : (ofDouble x).Free := by
  unfold ofDouble
  split <;> trivial

end Json

/-! ## What the codecs write -/

namespace Codec

theorem free?_binary64 (x : Binary64) : (binary64.encode x).free? = some (ofDouble x) :=
  Json.free?_of_free (Json.free_ofDouble x)

theorem free?_strings (l : List String) : ((list string).encode l).free? = some (ofTexts l) :=
  Json.free?_of_free (Json.free_ofTexts l)

theorem isReadable_bytes (b : ByteArray) : (bytes.encode b).isReadable = true :=
  Json.isReadable_of_free (Json.free_arr_map (f := byte.encode) (fun _ => trivial) b.data.toList)

theorem free?_task (t : Option TaskId) :
    ((option TaskId.codec).encode t).free? = some (ofTask t) := by
  cases t with
  | none => rfl
  | some t =>
      let written := [("problem_id", ofWord t.problem), ("iteration_id", ofWord t.iteration)]
      have hnodup : (written.map Prod.fst).Nodup := by simp [written]
      have harranged : Entries.Arranges
          [("iteration_id", ofWord t.iteration), ("problem_id", ofWord t.problem)] written :=
        ⟨List.pairwise_pair.mpr (by decide : "iteration_id" < "problem_id"),
          fun e => by simp [written, or_comm]⟩
      show some (Json.obj (Entries.insertAll written)) = _
      rw [(Entries.arranges_insertAll hnodup).unique harranged]
      rfl

end Codec

open Codec

/-! ## Extra data as an object -/

namespace Extra

variable {e : Extra}

/-- The extra data are written as they are declared. -/
theorem members_eq_declared (e : Extra) : e.members = e.declared := rfl

/-- The interpreted fields are texts and words. -/
theorem free_of_mem_interpreted : ∀ f ∈ e.interpreted, ∀ j, f.2 = some j → j.Free := by
  have hoption {α : Type} (f : α → Json) (hf : ∀ a, (f a).Free) (x : Option α) :
      ∀ j, x.map f = some j → j.Free := by
    intro j hj
    obtain ⟨a, -, rfl⟩ := Option.map_eq_some_iff.mp hj
    exact hf a
  have htext := hoption Json.str fun _ => trivial
  have hword := hoption ofWord fun _ => trivial
  have hrestrains : ∀ j, (if e.modelRestrains.isEmpty then none
      else some (ofTexts e.modelRestrains)) = some j → j.Free := by
    intro j hj
    split at hj <;> cases hj
    exact Json.free_ofTexts _
  simp only [interpreted, List.forall_mem_cons]
  exact ⟨htext _, hword _, htext _, hword _, hrestrains, hword _, htext _, htext _,
    fun _ hf => absurd hf List.not_mem_nil⟩

theorem freeMembers_declared (e : Extra) : Json.FreeMembers e.declared := by
  refine Json.freeMembers_iff.mpr fun m hm => ?_
  rcases List.mem_append.mp hm with hm | hm
  · obtain ⟨f, hf, hvalue⟩ := List.mem_filterMap.mp hm
    obtain ⟨j, hj, rfl⟩ := Option.map_eq_some_iff.mp hvalue
    exact free_of_mem_interpreted f hf j hj
  · exact Json.freeMembers_iff.mp e.other.free m hm

theorem isReadable_of_mem_members {m : String × Json} (hm : m ∈ e.members) :
    m.2.isReadable = true := by
  rw [members_eq_declared] at hm
  exact Json.isReadable_of_free (Json.freeMembers_iff.mp e.freeMembers_declared m hm)

theorem free?_codec (e : Extra) :
    (codec.encode e).free? = some (.obj (Entries.insertAll e.declared)) := by
  show (Json.freeMembers? e.members).map _ = _
  rw [members_eq_declared, Json.freeMembers?_of_free e.freeMembers_declared]
  rfl

/-- No two members that are written have the same name. -/
theorem nodup_members (hunknown : ∀ n ∈ e.other.members, record.knows n.1 = false) :
    (e.members.map Prod.fst).Nodup := by
  rw [members, List.map_append, List.nodup_append]
  refine ⟨Record.nodup_members (by decide), Entries.nodup_of_sorted e.other.sorted, ?_⟩
  rintro name hrecord name' hother rfl
  obtain ⟨n, hn, rfl⟩ := List.mem_map.mp hrecord
  obtain ⟨n', hn', heq⟩ := List.mem_map.mp hother
  have hknown := hunknown n' hn'
  rw [heq, Record.knows_of_mem_members hn] at hknown
  cases hknown

end Extra

namespace Output

variable {o : Output} {e : Extra}

/-! ## Fields of outputs -/

/-- An output writes what it declares, and after it the block of its extra data. -/
theorem exists_own_members (o : Output) :
    ∃ own, o.members = own ++ [("extra_data", bytes.encode o.extraData)] ∧
      Json.freeMembers? own = some o.declared := by
  -- texts, words and truth values are written as they are declared
  cases o with
  | appRequirements o =>
      refine ⟨[_, _], rfl, ?_⟩
      simp only [Json.freeMembers?, Json.freeMember?, free?_task, free?_strings]
      rfl
  | carbonFootprint o =>
      refine ⟨[_, _, _, _], rfl, ?_⟩
      simp only [Json.freeMembers?, Json.freeMember?, free?_task, free?_binary64]
      rfl
  | hwConstraints o =>
      refine ⟨[_, _], rfl, ?_⟩
      simp only [Json.freeMembers?, Json.freeMember?, free?_task]
      rfl
  | hwResource o =>
      refine ⟨[_, _, _, _, _, _], rfl, ?_⟩
      simp only [Json.freeMembers?, Json.freeMember?, free?_task, free?_binary64]
      rfl
  | mlModelMetadata o =>
      refine ⟨[_, _, _], rfl, ?_⟩
      simp only [Json.freeMembers?, Json.freeMember?, free?_task, free?_strings]
      rfl
  | mlModel o =>
      refine ⟨[_, _, _, _, _, _, _], rfl, ?_⟩
      simp only [Json.freeMembers?, Json.freeMember?, free?_task, free?_strings, free?_binary64]
      rfl
  | userInput u =>
      refine ⟨[_, _, _, _, _, _, _, _, _, _, _, _, _, _], rfl, ?_⟩
      simp only [Json.freeMembers?, Json.freeMember?, free?_task, free?_strings, free?_binary64]
      rfl

/-- The names of all fields of an output differ, and none of them is that of the kind. -/
theorem names_declared (o : Output) : (o.declared.map Prod.fst ++ ["extra_data"]).Nodup ∧
    "kind" ∉ o.declared.map Prod.fst ++ ["extra_data"] := by
  cases o <;> simp [declared]

theorem extraData_notMem_declared (o : Output) : "extra_data" ∉ o.declared.map Prod.fst :=
  fun h => (List.nodup_append.mp o.names_declared.1).2.2 _ h _ (List.mem_singleton_self _) rfl

theorem kind_notMem_members (o : Output) : "kind" ∉ o.members.map Prod.fst := by
  obtain ⟨own, hmembers, hown⟩ := o.exists_own_members
  rw [hmembers, List.map_append, ← Json.names_of_freeMembers? hown]
  exact o.names_declared.2

theorem isReadable_of_mem_members {m : String × Json} (hm : m ∈ o.members) :
    m.2.isReadable = true := by
  obtain ⟨own, hmembers, hown⟩ := o.exists_own_members
  rw [hmembers] at hm
  rcases List.mem_append.mp hm with hm | hm
  · exact (Json.freeMembers?_eq_some_iff.mp hown).1 m hm
  · rw [List.mem_singleton.mp hm]
    exact isReadable_bytes o.extraData

/-! ## Results -/

theorem extra_of_isEmptyBlock (h : Extra.isEmptyBlock o.extraData = true) : o.extra = .ok {} :=
  Extra.decode_eq_ok_iff.mpr (if_pos h)

/-- In a result the decoded extra data stand in the place of the block. -/
theorem freeMembers?_resultMembers (o : Output) (e : Extra) :
    Json.freeMembers? (o.resultMembers e) =
      some (o.declared ++ [("extra_data", .obj (Entries.insertAll e.declared))]) := by
  obtain ⟨own, hmembers, hown⟩ := o.exists_own_members
  have hextra := o.extraData_notMem_declared
  rw [Json.names_of_freeMembers? hown] at hextra
  have hresult : o.resultMembers e = own ++ [("extra_data", Extra.codec.encode e)] := by
    rw [resultMembers, hmembers, List.map_append]
    refine congrArg (· ++ _) ((List.map_congr_left fun m hm => ?_).trans (List.map_id own))
    have hname : m.1 ≠ "extra_data" := fun heq => hextra (heq ▸ List.mem_map_of_mem hm)
    simp [hname]
  rw [hresult]
  refine Json.freeMembers?_append hown ?_
  rw [Json.freeMembers?, Json.freeMember?, e.free?_codec]
  rfl

/-- **A result shows its output.** -/
theorem exists_shows (h : o.extra = .ok e) :
    ∃ m, o.resultJson = .ok (.obj m) ∧ o.Shows e m := by
  obtain ⟨hnodup, hkind⟩ := o.names_declared
  have hunknown := (Extra.isReadable_of_decode? (Extra.decode_eq_ok_iff.mp h)).unknown
  have hx := Entries.arranges_insertAll (e.members_eq_declared ▸ Extra.nodup_members hunknown)
  let shown := o.declared ++ [("extra_data", .obj (Entries.insertAll e.declared))]
  have hnames : shown.map Prod.fst = o.declared.map Prod.fst ++ ["extra_data"] := List.map_append
  have hm := Entries.arranges_insertAll (hnames ▸ hnodup)
  refine ⟨Entries.insertAll shown, ?_, ⟨_, hx, hm⟩, ?_⟩
  · rw [resultJson, h]
    show Except.ok (Json.obj (o.resultMembers e)).canonical = _
    rw [Json.canonical, Json.free?, freeMembers?_resultMembers]
    rfl
  · intro hmem
    obtain ⟨f, hf, hname⟩ := List.mem_map.mp hmem
    rw [← hnames, ← hname] at hkind
    exact hkind (List.mem_map_of_mem ((hm.mem_iff f).mp hf))

end Output

end WorkerPipeline
