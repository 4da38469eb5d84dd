import WorkerPipeline.Message.Event
import WorkerPipeline.Proofs.Message.Completion
import WorkerPipeline.Proofs.Message.Result

set_option autoImplicit false

/-! # Messages as documents

Every message that is written as a document is read back as it was, provided that its doubles and
its free numbers are read back from their own text and that nothing is nested too deeply
(`messages_return`). So outputs that differ never have the same text, whatever their kinds, and
neither have events.

A codec `Returns` a value if the JSON of the value can be written down and is decoded to the value.
What a record codec returns is told from its fields, one after the other (`Record.returns`).
-/

namespace WorkerPipeline

namespace Codec

variable {α β : Type} {levels : Nat}

/-- The document that holds a value. -/
def text (c : Codec α) (a : α) : String := (c.encode a).render

/-- The value that a document holds. -/
def read? (c : Codec α) (text : String) : Option α := (Json.read? text).bind c.decode?

/-- The value comes back: its JSON is nested at most `levels` deep, all numbers in it are read back
from their text, and it is decoded to the value. -/
structure Returns (c : Codec α) (levels : Nat) (a : α) : Prop where
  within : Json.Within Number.ReadsBack levels (c.encode a)
  decode : c.decode? (c.encode a) = some a

/-- **From the value to the text and back.** -/
theorem Returns.read?_text {c : Codec α} {a : α} (h : c.Returns Json.maxLevels a) :
    c.read? (c.text a) = some a := by
  have hlegible : Json.Within Number.IsLegible Json.maxLevels (c.encode a) :=
    Json.within_mono (fun _ hn => hn.lasts.isLegible) _ (Nat.le_refl _) h.within
  rw [read?, text, Json.read?_render hlegible, Json.reread_of_readsBack _ h.within,
    Option.bind_some, h.decode]

/-! ## Simple types -/

theorem returns_string (s : String) : string.Returns levels s :=
  ⟨trivial, lawful_string s trivial⟩

theorem returns_bool (b : Bool) : bool.Returns levels b := ⟨trivial, rfl⟩

theorem returns_uint32 (n : UInt32) : uint32.Returns levels n :=
  ⟨Extra.within_uint32 n levels, lawful_uint32 n trivial⟩

/-- The text of a double that is not finite is not that of a number. -/
theorem isFinite_of_readsBack {x : Binary64} (h : (Number.float x).ReadsBack) :
    x.isFinite = true := by
  cases hfinite : x.isFinite with
  | true => rfl
  | false =>
      have hnull : Number.render (.float x) = ['n', 'u', 'l', 'l'] := by
        simp [Number.render, Binary64.render, hfinite]
      have hnone : Number.read? ['n', 'u', 'l', 'l'] = none := by decide
      rw [Number.ReadsBack, hnull, hnone] at h
      cases h

theorem returns_binary64 {x : Binary64} (h : (Number.float x).ReadsBack) :
    binary64.Returns levels x := by
  have hencode : binary64.encode x = .num (.float x) := if_pos (isFinite_of_readsBack h)
  constructor
  · rw [hencode]
    exact h
  · rw [hencode]
    rfl

theorem returns_list {c : Codec α} {l : List α} (h : ∀ a ∈ l, c.Returns levels a) :
    (list c).Returns (levels + 1) l where
  within := by
    refine ⟨Nat.succ_pos levels, Json.elementsWithin_iff.mpr fun j hj => ?_⟩
    obtain ⟨a, ha, rfl⟩ := List.mem_map.mp hj
    exact (h a ha).within
  decode := lawful_list (p := fun a => c.Returns levels a) (fun _ ha => ha.decode) l h

theorem returns_strings (l : List String) : (list string).Returns (levels + 1) l :=
  returns_list fun s _ => returns_string s

theorem returns_option {c : Codec α} (hnull : ∀ a, c.encode a ≠ .null) {a? : Option α}
    (h : ∀ a ∈ a?, c.Returns levels a) : c.option.Returns levels a? := by
  cases a? with
  | none => exact ⟨trivial, rfl⟩
  | some a =>
      refine ⟨(h a rfl).within, ?_⟩
      show Json.asOption? c.decode? (c.encode a) = _
      unfold Json.asOption?
      split
      · rename_i heq
        exact absurd heq (hnull a)
      · rw [(h a rfl).decode]
        rfl

theorem returns_byte (b : UInt8) : byte.Returns levels b := by
  have hb : b.toNat < 256 := b.toNat_lt
  have hreads : (Number.int b.toNat).ReadsBack := Number.readsBack_int (by omega) (by omega)
  refine ⟨hreads, ?_⟩
  simp only [byte]
  rw [asNatBelow?_nat hb, Option.map_some, UInt8.ofNat_toNat]

theorem returns_bytes (block : ByteArray) : bytes.Returns (levels + 1) block := by
  have hlist : (list byte).Returns (levels + 1) block.data.toList :=
    returns_list fun b _ => returns_byte b
  refine ⟨hlist.within, ?_⟩
  show ((list byte).decode? ((list byte).encode block.data.toList)).map
    (fun l => ByteArray.mk l.toArray) = _
  rw [hlist.decode]
  rfl

/-- A name is found where it is the name of one value only. -/
theorem returns_named {name : α → String} {all : List α}
    (h : ∀ a, (all.find? fun b => name b == name a) = some a) (a : α) :
    (named name all).Returns levels a := ⟨trivial, h a⟩

/-! ## Records -/

/-- A field hands a value on: what it writes of the record `a` can be written down, and reading it
changes any record by `restore`. -/
structure Field.Returns (f : Field α) (levels : Nat) (a : α) (restore : α → α) : Prop where
  within : ∀ j, f.write a = some j → Json.Within Number.ReadsBack levels j
  copy : ∀ b, f.copy? a b = some (restore b)

theorem Field.returns_of {name : String} {c : Codec β} {get : α → β} {set : β → α → α}
    {required : Bool} {a : α} (h : c.Returns levels (get a)) :
    (Field.of name c get set required).Returns levels a (set (get a)) where
  within := by
    intro j hj
    cases hj
    exact h.within
  copy b := by
    show (c.decode? (c.encode (get a))).map (set · b) = _
    rw [h.decode]
    rfl

/-- **A record comes back** if every field hands its value on and the blank record becomes the
record when all fields are restored. -/
theorem Record.returns {r : Record α} {a : α} {restores : List (α → α)}
    (hfields : List.Forall₂ (fun f restore => f.Returns levels a restore) r.fields restores)
    (hn : (r.fields.map Field.name).Nodup)
    (hblank : restores.foldl (fun b restore => restore b) r.blank = a) :
    r.codec.Returns (levels + 1) a where
  within := by
    refine ⟨Nat.succ_pos levels, Json.membersWithin_iff.mpr fun e he => ?_⟩
    obtain ⟨f, hf, hwritten⟩ := List.mem_filterMap.mp he
    obtain ⟨j, hj, rfl⟩ := Option.map_eq_some_iff.mp hwritten
    obtain ⟨i, hi, rfl⟩ := List.getElem_of_mem hf
    exact (hfields.get hi (hfields.length_eq ▸ hi)).within j hj
  decode := by
    -- both folds go through the fields, whatever record they start from
    have fold_eq (fs : List (Field α)) (restores : List (α → α)) (b : α)
        (h : List.Forall₂ (fun f restore => f.Returns levels a restore) fs restores) :
        fs.foldlM (fun b f => f.copy? a b) b =
          some (restores.foldl (fun b restore => restore b) b) := by
      induction h generalizing b with
      | nil => rfl
      | cons hf _ ih => rw [Field.foldlM_copy?_cons (hf.copy b), ih, List.foldl_cons]
    have hread := r.ofMembers?_members a [] hn fun _ h => absurd h List.not_mem_nil
    rw [List.append_nil] at hread
    show r.ofMembers? (r.members a) = some a
    rw [hread, fold_eq r.fields restores r.blank hfields, hblank]

end Codec

open Codec Codec.Field

variable {levels : Nat}

/-! ## The parts of messages -/

theorem Worker.returns (w : Worker) : Worker.codec.Returns levels w :=
  returns_named (by intro w; cases w <;> decide) w

theorem WorkerStatus.returns (s : WorkerStatus) : WorkerStatus.codec.Returns levels s :=
  returns_named (by intro s; cases s <;> decide) s

theorem ErrorCode.returns (e : ErrorCode) : ErrorCode.codec.Returns levels e :=
  returns_named (by intro e; cases e <;> decide) e

theorem TaskId.returns (t : TaskId) : TaskId.codec.Returns (levels + 1) t :=
  Record.returns
    (.cons (returns_of (returns_uint32 _)) (.cons (returns_of (returns_uint32 _)) .nil))
    (by decide) rfl

theorem TaskId.returns_option (t? : Option TaskId) :
    (option TaskId.codec).Returns (levels + 1) t? :=
  Codec.returns_option (fun _ h => by cases h) fun t _ => t.returns

namespace Brief

variable {α : Type} {getBrief : α → Brief} {setBrief : Brief → α → α}

/-- The first fields of a brief hand their values on, whatever record contains it. -/
theorem returns_leadingFields (a : α) :
    List.Forall₂ (fun f restore => Field.Returns f (levels + 1) a restore)
      (leadingFields getBrief setBrief)
      [fun b => setBrief { getBrief b with modality := (getBrief a).modality } b,
        fun b => setBrief { getBrief b with shortDescription := (getBrief a).shortDescription } b,
        fun b => setBrief { getBrief b with definition := (getBrief a).definition } b,
        fun b => setBrief { getBrief b with inputs := (getBrief a).inputs } b,
        fun b => setBrief { getBrief b with outputs := (getBrief a).outputs } b,
        fun b => setBrief { getBrief b with minimumSamples := (getBrief a).minimumSamples } b,
        fun b => setBrief { getBrief b with maximumSamples := (getBrief a).maximumSamples } b,
        fun b => setBrief
          { getBrief b with optimizeManually := (getBrief a).optimizeManually } b] :=
  .cons (returns_of (returns_string _)) (.cons (returns_of (returns_string _))
    (.cons (returns_of (returns_string _)) (.cons (returns_of (returns_strings _))
      (.cons (returns_of (returns_strings _)) (.cons (returns_of (returns_uint32 _))
        (.cons (returns_of (returns_uint32 _)) (.cons (returns_of (returns_bool _)) .nil)))))))

/-- So do the last ones, if the footprint is read back from its text. -/
theorem returns_trailingFields {a : α}
    (h : (Number.float (getBrief a).desiredFootprint).ReadsBack) :
    List.Forall₂ (fun f restore => Field.Returns f (levels + 1) a restore)
      (trailingFields getBrief setBrief)
      [fun b => setBrief
          { getBrief b with optimizeAutomatically := (getBrief a).optimizeAutomatically } b,
        fun b => setBrief { getBrief b with desiredFootprint := (getBrief a).desiredFootprint } b,
        fun b => setBrief { getBrief b with continent := (getBrief a).continent } b,
        fun b => setBrief { getBrief b with region := (getBrief a).region } b] :=
  .cons (returns_of (returns_bool _)) (.cons (returns_of (returns_binary64 h))
    (.cons (returns_of (returns_string _)) (.cons (returns_of (returns_string _)) .nil)))

end Brief

/-! ## Inputs and outputs -/

theorem UserInput.returns {u : UserInput}
    (h : (Number.float u.brief.desiredFootprint).ReadsBack) :
    UserInput.codec.Returns (levels + 2) u :=
  Record.returns
    (.cons (returns_of (TaskId.returns_option _))
      (List.rel_append (Brief.returns_leadingFields u)
        (.cons (returns_of (returns_uint32 _))
          (List.rel_append (Brief.returns_trailingFields h)
            (.cons (returns_of (returns_bytes _)) .nil)))))
    (by decide) rfl

theorem AppRequirements.returns (o : AppRequirements) :
    AppRequirements.record.codec.Returns (levels + 2) o :=
  Record.returns
    (.cons (returns_of (TaskId.returns_option _)) (.cons (returns_of (returns_strings _))
      (.cons (returns_of (returns_bytes _)) .nil)))
    (by decide) rfl

theorem CarbonFootprint.returns {o : CarbonFootprint}
    (hfootprint : (Number.float o.footprint).ReadsBack)
    (henergy : (Number.float o.energyConsumption).ReadsBack)
    (hintensity : (Number.float o.intensity).ReadsBack) :
    CarbonFootprint.record.codec.Returns (levels + 2) o :=
  Record.returns
    (.cons (returns_of (TaskId.returns_option _)) (.cons (returns_of (returns_binary64 hfootprint))
      (.cons (returns_of (returns_binary64 henergy))
        (.cons (returns_of (returns_binary64 hintensity))
          (.cons (returns_of (returns_bytes _)) .nil)))))
    (by decide) rfl

theorem HwConstraints.returns (o : HwConstraints) :
    HwConstraints.record.codec.Returns (levels + 2) o :=
  Record.returns
    (.cons (returns_of (TaskId.returns_option _)) (.cons (returns_of (returns_uint32 _))
      (.cons (returns_of (returns_bytes _)) .nil)))
    (by decide) rfl

theorem HwResource.returns {o : HwResource} (hpower : (Number.float o.powerConsumption).ReadsBack)
    (hlatency : (Number.float o.latency).ReadsBack)
    (hmodel : (Number.float o.modelFootprint).ReadsBack)
    (hmax : (Number.float o.maxFootprint).ReadsBack) :
    HwResource.record.codec.Returns (levels + 2) o :=
  Record.returns
    (.cons (returns_of (TaskId.returns_option _)) (.cons (returns_of (returns_string _))
      (.cons (returns_of (returns_binary64 hpower)) (.cons (returns_of (returns_binary64 hlatency))
        (.cons (returns_of (returns_binary64 hmodel)) (.cons (returns_of (returns_binary64 hmax))
          (.cons (returns_of (returns_bytes _)) .nil)))))))
    (by decide) rfl

theorem MlModelMetadata.returns (o : MlModelMetadata) :
    MlModelMetadata.record.codec.Returns (levels + 2) o :=
  Record.returns
    (.cons (returns_of (TaskId.returns_option _)) (.cons (returns_of (returns_strings _))
      (.cons (returns_of (returns_strings _)) (.cons (returns_of (returns_bytes _)) .nil))))
    (by decide) rfl

theorem MlModel.returns {o : MlModel} (hlatency : (Number.float o.targetLatency).ReadsBack) :
    MlModel.record.codec.Returns (levels + 2) o :=
  Record.returns
    (.cons (returns_of (TaskId.returns_option _)) (.cons (returns_of (returns_string _))
      (.cons (returns_of (returns_string _)) (.cons (returns_of (returns_string _))
        (.cons (returns_of (returns_string _)) (.cons (returns_of (returns_strings _))
          (.cons (returns_of (returns_binary64 hlatency))
            (.cons (returns_of (returns_bytes _)) .nil))))))))
    (by decide) rfl

namespace Output

/-- The doubles that an output holds. -/
def doubles : Output → List Binary64
  | appRequirements _ => []
  | carbonFootprint o => [o.footprint, o.energyConsumption, o.intensity]
  | hwConstraints _ => []
  | hwResource o => [o.powerConsumption, o.latency, o.modelFootprint, o.maxFootprint]
  | mlModelMetadata _ => []
  | mlModel o => [o.targetLatency]
  | userInput u => [u.brief.desiredFootprint]

/-- The fields of an output come back as an output of its kind. -/
theorem returns_members {o : Output} (h : ∀ x ∈ o.doubles, (Number.float x).ReadsBack) :
    Json.Within Number.ReadsBack (levels + 2) (.obj o.members) ∧
      ofFields? o.kind (.obj o.members) = some o := by
  have of_record {α : Type} {r : Record α} {a : α} (hr : r.codec.Returns (levels + 2) a)
      (wrap : α → Output) : Json.Within Number.ReadsBack (levels + 2) (.obj (r.members a)) ∧
        (r.codec.decode? (.obj (r.members a))).map wrap = some (wrap a) :=
    ⟨hr.within, congrArg (Option.map wrap) hr.decode⟩
  cases o with
  | appRequirements o => exact of_record o.returns appRequirements
  | carbonFootprint o =>
      exact of_record (CarbonFootprint.returns (h o.footprint (by simp [doubles]))
        (h o.energyConsumption (by simp [doubles])) (h o.intensity (by simp [doubles])))
        carbonFootprint
  | hwConstraints o => exact of_record o.returns hwConstraints
  | hwResource o =>
      exact of_record (HwResource.returns (h o.powerConsumption (by simp [doubles]))
        (h o.latency (by simp [doubles])) (h o.modelFootprint (by simp [doubles]))
        (h o.maxFootprint (by simp [doubles]))) hwResource
  | mlModelMetadata o => exact of_record o.returns mlModelMetadata
  | mlModel o => exact of_record (MlModel.returns (h o.targetLatency (by simp [doubles]))) mlModel
  | userInput u =>
      exact of_record (UserInput.returns (h u.brief.desiredFootprint (by simp [doubles]))) userInput

theorem returns {o : Output} (h : ∀ x ∈ o.doubles, (Number.float x).ReadsBack) :
    Output.codec.Returns (levels + 2) o := by
  obtain ⟨hwithin, hfields⟩ := returns_members h
  refine ⟨⟨hwithin.1, trivial, hwithin.2⟩, ?_⟩
  have hreadable : (Json.obj (("kind", .str o.kind) :: o.members)).isReadable = true := by
    refine Json.isReadable_obj fun e he => ?_
    rcases List.mem_cons.mp he with rfl | he
    · rfl
    · exact isReadable_of_mem_members he
  -- no field bears the name of the kind
  have hname : ∀ e ∈ o.members, e.1 ≠ "kind" := fun e he heq =>
    o.kind_notMem_members (heq ▸ List.mem_map_of_mem he)
  have hkind : (("kind", Json.str o.kind) :: o.members).filter (fun m => m.1 == "kind") =
      [("kind", .str o.kind)] := by
    rw [List.filter_cons_of_pos rfl, List.filter_eq_nil_iff.mpr]
    intro e he
    simpa using hname e he
  have hrest : (("kind", Json.str o.kind) :: o.members).filter (fun m => m.1 != "kind") =
      o.members := by
    rw [List.filter_cons_of_neg (by simp), List.filter_eq_self.mpr]
    intro e he
    simpa using hname e he
  show ofJson? (.obj (("kind", .str o.kind) :: o.members)) = some o
  simp only [ofJson?, hreadable, Bool.not_true, Bool.false_eq_true, if_false, hkind, hrest]
  exact hfields

end Output

/-! ## Events -/

namespace Event

/-- The doubles that an event holds. -/
def doubles : Event → List Binary64
  | statusChanged _ => []
  | newOutput a => a.output.doubles

theorem returns {e : Event} (h : ∀ x ∈ e.doubles, (Number.float x).ReadsBack) :
    Event.codec.Returns (levels + 4) e := by
  cases e with
  | statusChanged c =>
      have hchange : changeRecord.codec.Returns (levels + 3) c :=
        Record.returns
          (.cons (returns_of (Worker.returns _)) (.cons (returns_of (WorkerStatus.returns _)) .nil))
          (by decide) rfl
      refine ⟨⟨Nat.succ_pos _, hchange.within, trivial⟩, ?_⟩
      exact congrArg (Option.map statusChanged) hchange.decode
  | newOutput a =>
      have harrival : arrivalRecord.codec.Returns (levels + 3) a :=
        Record.returns
          (.cons (returns_of (Worker.returns _)) (.cons (returns_of (TaskId.returns_option _))
            (.cons (returns_of (Output.returns h)) .nil)))
          (by decide) rfl
      refine ⟨⟨Nat.succ_pos _, harrival.within, trivial⟩, ?_⟩
      exact congrArg (Option.map newOutput) harrival.decode

end Event

/-! ## Submissions -/

/-- Extra data come back if the other members bear names of their own and their numbers are read
back. -/
theorem Extra.returns {e : Extra} (hunknown : ∀ m ∈ e.other.members, record.knows m.1 = false)
    (hnested : Json.MembersWithin Number.ReadsBack (levels + 1) e.other.members) :
    Extra.codec.Returns (levels + 2) e where
  within := by
    refine ⟨Nat.succ_pos _, Json.membersWithin_iff.mpr fun m hm => ?_⟩
    rcases List.mem_append.mp hm with hm | hm
    · exact Json.membersWithin_iff.mp (within_record e (Nat.succ_pos levels)) m hm
    · exact Json.membersWithin_iff.mp hnested m hm
  decode := by
    show ofMembers? (record.members e ++ e.other.members) = some e
    rw [ofMembers?, ofMembers?_record e hunknown, rest_append e hunknown]
    show (FreeObject.ofMembers? e.other.members).bind _ = _
    rw [FreeObject.ofMembers?_members]
    rfl

namespace Submission

/-- A submission that can be written down: the footprint and the numbers among the members that
are not interpreted are read back from their text, these members bear names of their own, and they
are nested no deeper than a document allows inside two objects. -/
structure IsWritable (s : Submission) : Prop where
  footprint : (Number.float s.brief.desiredFootprint).ReadsBack
  unknown : ∀ m ∈ s.extra.other.members, Extra.record.knows m.1 = false
  nested : Json.MembersWithin Number.ReadsBack (Json.maxLevels - 2) s.extra.other.members

theorem IsWritable.returns {s : Submission} (h : s.IsWritable) :
    Submission.codec.Returns (126 + 1) s :=
  have hiteration : (option uint32).Returns 126 s.previousIteration :=
    returns_option uint32_encode_ne_null fun n _ => returns_uint32 n
  have hextra : Extra.codec.Returns (124 + 2) s.extra := Extra.returns h.unknown h.nested
  Record.returns
    (List.rel_append (Brief.returns_leadingFields s)
      (List.rel_append (Brief.returns_trailingFields h.footprint)
        (.cons (returns_of hiteration) (.cons (returns_of hextra) .nil))))
    (by decide) rfl

end Submission

/-! ## Configuration messages -/

theorem ConfigurationRequest.returns (r : ConfigurationRequest) :
    ConfigurationRequest.codec.Returns (levels + 1) r :=
  Record.returns
    (.cons (returns_of (Worker.returns _)) (.cons (returns_of (returns_uint32 _))
      (.cons (returns_of (returns_string _)) .nil)))
    (by decide) rfl

theorem ConfigurationResponse.returns (r : ConfigurationResponse) :
    ConfigurationResponse.codec.Returns (levels + 1) r :=
  Record.returns
    (.cons (returns_of (Worker.returns _)) (.cons (returns_of (returns_uint32 _))
      (.cons (returns_of (returns_string _)) (.cons (returns_of (returns_bool _))
        (.cons (returns_of (ErrorCode.returns _)) .nil)))))
    (by decide) rfl

/-! ## All messages -/

/-- Values that come back differ if their texts differ. -/
theorem Codec.Returns.eq_of_text {α : Type} {c : Codec α} {a b : α}
    (ha : c.Returns Json.maxLevels a) (hb : c.Returns Json.maxLevels b)
    (h : c.text a = c.text b) : a = b := by
  have hread := ha.read?_text
  rw [h, hb.read?_text] at hread
  exact (Option.some.inj hread).symm

/-- **Messages come back** from their documents as they were, and outputs and events with the same
text are the same. -/
theorem messages_return :
    (∀ t : TaskId, TaskId.codec.read? (TaskId.codec.text t) = some t) ∧
    (∀ u : UserInput, (Number.float u.brief.desiredFootprint).ReadsBack →
      UserInput.codec.read? (UserInput.codec.text u) = some u) ∧
    (∀ s : Submission, s.IsWritable →
      Submission.codec.read? (Submission.codec.text s) = some s) ∧
    (∀ o : Output, (∀ x ∈ o.doubles, (Number.float x).ReadsBack) →
      Output.codec.read? (Output.codec.text o) = some o) ∧
    (∀ e : Event, (∀ x ∈ e.doubles, (Number.float x).ReadsBack) →
      Event.codec.read? (Event.codec.text e) = some e) ∧
    (∀ r : ConfigurationRequest,
      ConfigurationRequest.codec.read? (ConfigurationRequest.codec.text r) = some r) ∧
    (∀ r : ConfigurationResponse,
      ConfigurationResponse.codec.read? (ConfigurationResponse.codec.text r) = some r) ∧
    (∀ o o' : Output, (∀ x ∈ o.doubles ++ o'.doubles, (Number.float x).ReadsBack) → o ≠ o' →
      Output.codec.text o ≠ Output.codec.text o') ∧
    (∀ e e' : Event, (∀ x ∈ e.doubles ++ e'.doubles, (Number.float x).ReadsBack) → e ≠ e' →
      Event.codec.text e ≠ Event.codec.text e') := by
  have houtput {o : Output} (h : ∀ x ∈ o.doubles, (Number.float x).ReadsBack) :
      Output.codec.Returns (125 + 2) o := Output.returns h
  have hevent {e : Event} (h : ∀ x ∈ e.doubles, (Number.float x).ReadsBack) :
      Event.codec.Returns (123 + 4) e := Event.returns h
  refine ⟨fun t => (TaskId.returns t).read?_text, fun u hu => (UserInput.returns hu).read?_text,
    fun s hs => hs.returns.read?_text, fun o ho => (houtput ho).read?_text,
    fun e he => (hevent he).read?_text, fun r => r.returns.read?_text,
    fun r => r.returns.read?_text, fun o o' h hne htext => hne ?_, fun e e' h hne htext => hne ?_⟩
  · obtain ⟨ho, ho'⟩ := List.forall_mem_append.mp h
    exact (houtput ho).eq_of_text (houtput ho') htext
  · obtain ⟨he, he'⟩ := List.forall_mem_append.mp h
    exact (hevent he).eq_of_text (hevent he') htext

/-- A measurement of 12.5 for a task. -/
def measured : Event :=
  .newOutput ⟨.carbonFootprint, some ⟨1, 0⟩, .carbonFootprint
    { task := some ⟨1, 0⟩, footprint := ⟨0x4029000000000000⟩, extraData := "\x7b\x7d".toUTF8 }⟩

/-- A submission with a list in a list among the members that are not interpreted. -/
def advised : Submission where
  brief := { shortDescription := "count the cells", desiredFootprint := ⟨0x3FE0000000000000⟩ }
  extra := {
    goal := some "accuracy"
    other := ⟨[("batches", .arr [.arr [.num (.int 32), .num (.float ⟨0x3FE0000000000000⟩)]])],
      .cons nofun .nil, ⟨⟨trivial, trivial, trivial⟩, trivial⟩, trivial⟩ }

/-- The measurement and the submission come back, and outputs without content differ by their
kinds. -/
theorem messages_return_advised :
    Event.codec.read? (Event.codec.text measured) = some measured ∧
      Submission.codec.read? (Submission.codec.text advised) = some advised ∧
      Output.codec.text (.hwConstraints {}) ≠ Output.codec.text (.appRequirements {}) := by
  have hmeasured : ∀ x ∈ measured.doubles, (Number.float x).ReadsBack := by decide +kernel
  have hadvised : advised.IsWritable := ⟨by decide +kernel, by decide, by decide +kernel⟩
  obtain ⟨-, -, hsubmission, -, hevent, -, -, houtputs, -⟩ := messages_return
  exact ⟨hevent measured hmeasured, hsubmission advised hadvised,
    houtputs (.hwConstraints {}) (.appRequirements {}) (by simp [Output.doubles]) nofun⟩

end WorkerPipeline
