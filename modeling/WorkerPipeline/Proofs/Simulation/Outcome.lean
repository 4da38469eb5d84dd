import WorkerPipeline.Proofs.Message.Reading
import WorkerPipeline.Proofs.Orchestrator.Fetching
import WorkerPipeline.Proofs.Simulation.Pipeline

set_option autoImplicit false

/-! # What a list of submissions leads to

Simulated workers answer every submission of a list to the end, however long each of them takes:
`submissions_answered` says which tasks are published, what their inputs hold, which results can
be fetched and which records the ledger keeps.
-/

namespace WorkerPipeline

/-- Of `n` problems, those from the `j`-th on are not more than a limit admits, which is one at
least. -/
def IsRecent (limit : Option Nat) (n j : Nat) : Prop := ∀ l, limit = some l → n ≤ j + max 1 l

/-- The input of an iteration tells where the chain of its problem stands. -/
structure UserInput.Continues (u : UserInput) (input : Submission) (problem : UInt32) (k : Nat) :
    Prop where
  task : u.task = some ⟨problem, UInt32.ofNat k⟩
  brief : u.brief = input.brief
  previousIteration : u.previousIteration = UInt32.ofNat (k - 1)
  extra : ∃ e, Extra.decode? u.extraData = some e ∧
    e.previousProblem = some problem ∧
    e.numOutputs = some (UInt32.ofNat (input.outputCount - k)) ∧
    e.modelRestrains = input.extra.modelRestrains ++ (List.range k).map input.candidate

/-- The result of a worker for a task can be handed out: the hub has an output of the worker for the
task, and the result shows it with its extra data decoded. -/
def Orchestrator.Serves (o : Orchestrator) (w : Worker) (t : TaskId) : Prop :=
  ∃ output e m, o.hub.fetch w t = some output ∧ output.worker = w ∧ output.task = some t ∧
    output.extra = .ok e ∧ output.resultJson = .ok (.obj m) ∧ output.Shows e m ∧
    o.fetchResult t w = .ok ⟨w, t, .obj m⟩

namespace Chain

variable {c : Chain}

theorem mem_block {t : TaskId} :
    t ∈ c.submission.block c.problem ↔ ∃ i < c.length, t = c.task i := by
  unfold Submission.block
  rw [List.mem_map]
  constructor
  · rintro ⟨i, hi, rfl⟩
    exact ⟨i, List.mem_range.mp hi, rfl⟩
  · rintro ⟨i, hi, rfl⟩
    exact ⟨i, List.mem_range.mpr hi, rfl⟩

theorem continues_input (hlasts : c.submission.extra.Lasts) {k : Nat} (hk : 0 < k) :
    (c.input k).Continues c.submission c.problem k where
  task := rfl
  brief := rfl
  previousIteration := rfl
  extra := ⟨(c.extra k).reread, decode?_input hlasts k, if_neg (Nat.ne_of_gt hk),
    if_neg (Nat.ne_of_gt hk), rfl⟩

theorem Served.serves {o : Orchestrator} (hs : c.Served o.hub) (hlasts : c.submission.extra.Lasts)
    {w : Worker} (htracked : w.isTracked = true) {i : Nat} (hi : i < c.length) :
    o.Serves w (c.task i) := by
  obtain ⟨output, houtput, hproduct⟩ := hs.outputs w htracked i hi
  have hlength := c.length_lt
  obtain ⟨e, hextra⟩ := hproduct.extra hlasts (by omega)
  obtain ⟨readings, hreadings⟩ := hproduct
  have hkind := Simulation.product?_eq_some hreadings
  have hfetch : o.hub.fetch w (c.task i) = some output :=
    (o.hub.fetch_of_isTracked htracked _).trans houtput
  obtain ⟨m, hresult, hjson, hshows⟩ :=
    (o.fetches_fetchResult (c.task i) w).shown output e hfetch hextra
  exact ⟨output, e, m, hfetch, hkind.1, hkind.2, hextra, hjson, hshows, hresult⟩

/-- All records of a chain that is kept are complete. -/
theorem Kept.isComplete {l : Ledger} (hk : c.Kept l) (hl : l.Consistent) {i : Nat}
    (hi : i < c.length) {r : TaskRecord} (hr : l.record? (c.task i) = some r) :
    r.isComplete = true := by
  rw [(hl.record_slots hr).isComplete_iff]
  intro w htracked
  have havailable := hk.available w htracked i hi
  rw [Ledger.available, hr] at havailable
  exact havailable

end Chain

namespace Session

variable {settings : Settings} {start : UInt32} {done : List Submission} {s : Session}

/-! ## All submissions of a list -/

theorem submitEach_cons (chance : Chance) (input : Submission) (inputs : List Submission)
    (s : Session) :
    submitEach chance (input :: inputs) s =
      ((s.submit input).1 :: (submitEach chance inputs ((s.submit input).2.settle chance)).1,
        (submitEach chance inputs ((s.submit input).2.settle chance)).2) := rfl

theorem Fulfilled.submitEach (chance : Chance) {inputs : List Submission}
    (hf : Fulfilled settings start done s)
    (hwrap : start.toNat + (done.length + inputs.length) ≤ UInt32.size)
    (hfresh : ∀ input ∈ inputs, input.IsFresh) (hlasts : ∀ input ∈ inputs, input.extra.Lasts) :
    (submitEach chance inputs s).1 = (List.range inputs.length).map
        (fun j => .ok (.first (problemAt start (done.length + j)))) ∧
      Fulfilled settings start (done ++ inputs) (submitEach chance inputs s).2 := by
  induction inputs generalizing done s with
  | nil => exact ⟨rfl, by rw [List.append_nil]; exact hf⟩
  | cons input inputs ih =>
      rw [List.length_cons] at hwrap
      obtain ⟨houtcome, hnext⟩ := hf.settle (by omega) (hfresh input List.mem_cons_self)
        (hlasts input List.mem_cons_self) chance
      have hlength : (done ++ [input]).length = done.length + 1 := List.length_append
      obtain ⟨houtcomes, hlast⟩ := ih hnext (by omega)
        (fun i hi => hfresh i (List.mem_cons_of_mem input hi))
        (fun i hi => hlasts i (List.mem_cons_of_mem input hi))
      rw [List.append_assoc, List.singleton_append] at hlast
      rw [submitEach_cons]
      refine ⟨?_, hlast⟩
      -- the place of a later submission counts from the ones already done
      simp only [houtcome, houtcomes, List.length_cons, List.range_succ_eq_map, List.map_cons,
        List.map_map, hlength]
      congr 1
      apply List.map_congr_left
      intro j _
      rw [Function.comp_apply, Nat.add_assoc, Nat.add_comm 1 j]

/-! ## What the ledger keeps -/

theorem mem_newestWithin_problemAt {limit : Option Nat} {n j : Nat}
    (hwrap : start.toNat + n ≤ UInt32.size) (hj : j < n) :
    problemAt start j ∈ Ledger.newestWithin limit ((List.range n).map (problemAt start)) ↔
      IsRecent limit n j := by
  have hmem (d : Nat) :
      problemAt start j ∈ ((List.range n).map (problemAt start)).drop d ↔ d ≤ j := by
    rw [← List.map_drop, List.range_eq_range', List.drop_range', List.mem_map]
    constructor
    · rintro ⟨i, hi, heq⟩
      obtain ⟨hlow, hhigh⟩ := List.mem_range'_1.mp hi
      have hsame : start.toNat + i = start.toNat + j := by
        rw [← toNat_problemAt (by omega), ← toNat_problemAt (by omega), heq]
      omega
    · intro hd
      exact ⟨j, List.mem_range'_1.mpr (by omega), rfl⟩
  unfold IsRecent Ledger.newestWithin
  cases limit with
  | none =>
      simp only [reduceCtorEq, false_implies, implies_true, iff_true]
      exact List.mem_map_of_mem (List.mem_range.mpr hj)
  | some limit =>
      simp only [hmem, List.length_map, List.length_range, Option.some.injEq, forall_eq']
      omega

/-- A record belongs to a task of a submission whose problem is tracked. -/
theorem Fulfilled.task_of_record (hf : Fulfilled settings start done s) {t : TaskId}
    (hsome : (s.orchestrator.ledger.record? t).isSome) :
    ∃ j input, done[j]? = some input ∧
      problemAt start j ∈ s.orchestrator.ledger.latest.keys ∧
      ∃ i < input.outputCount, t = (chainAt settings start j input).task i := by
  have hkeys := hf.recorded t hsome
  obtain ⟨j, hj, hproblem⟩ := List.mem_map.mp (Ledger.mem_of_mem_newestWithin (hf.keys ▸ hkeys))
  have hlt := List.mem_range.mp hj
  have hinput : done[j]? = some done[j] := List.getElem?_eq_getElem hlt
  rw [← hproblem] at hkeys
  exact ⟨j, done[j], hinput, hkeys, ((hf.kept j _ hinput hkeys).recorded t hproblem.symm).mp hsome⟩

theorem Fulfilled.isSome_record?_iff (hf : Fulfilled settings start done s)
    (hwrap : start.toNat + done.length ≤ UInt32.size) (t : TaskId) :
    (s.orchestrator.ledger.record? t).isSome ↔
      ∃ j input, done[j]? = some input ∧ IsRecent settings.retention done.length j ∧
        t ∈ input.block (problemAt start j) := by
  have hrecent {j : Nat} {input : Submission} (hinput : done[j]? = some input) :
      problemAt start j ∈ s.orchestrator.ledger.latest.keys ↔
        IsRecent settings.retention done.length j := by
    rw [hf.keys]
    exact mem_newestWithin_problemAt hwrap (List.getElem?_eq_some_iff.mp hinput).1
  constructor
  · intro hsome
    obtain ⟨j, input, hinput, hkeys, hblock⟩ := hf.task_of_record hsome
    exact ⟨j, input, hinput, (hrecent hinput).mp hkeys,
      (Chain.mem_block (c := chainAt settings start j input)).mpr hblock⟩
  · rintro ⟨j, input, hinput, hlimit, hblock⟩
    obtain ⟨i, hi, rfl⟩ := (Chain.mem_block (c := chainAt settings start j input)).mp hblock
    have hkept := hf.kept j input hinput ((hrecent hinput).mpr hlimit)
    exact (hkept.recorded _ rfl).mpr ⟨i, hi, rfl⟩

theorem Fulfilled.isComplete (hf : Fulfilled settings start done s) {t : TaskId} {r : TaskRecord}
    (hr : s.orchestrator.ledger.record? t = some r) : r.isComplete = true := by
  obtain ⟨j, input, hinput, hkeys, i, hi, rfl⟩ := hf.task_of_record (t := t) (by rw [hr]; rfl)
  exact (hf.kept j input hinput hkeys).isComplete hf.consistent hi hr

/-! ## The whole run -/

/-- **Simulated workers answer every submission.** Fresh submissions are handed in one after the
other, and the session runs until it is quiet after each. Then the tasks of the submissions have
been published block by block and no others; every input but the first of a block follows the one
before it; the results of the tracked workers can be fetched for every task and show their outputs;
and the ledger keeps the records of the newest problems, which are complete. -/
theorem submissions_answered (settings : Settings) (start : UInt32)
    (responder : ConfigurationRequest → ConfigurationResponse) (chance : Chance)
    (inputs : List Submission) (hfresh : ∀ input ∈ inputs, input.IsFresh)
    (hreadable : ∀ input ∈ inputs, input.extra.IsReadable)
    (hwrap : start.toNat + inputs.length ≤ UInt32.size) :
    ∃ outcomes s,
      submitEach chance inputs (.new settings { nextProblem := start, simulated := true, responder }) =
        (outcomes, s) ∧
      outcomes = (List.range inputs.length).map (fun j => .ok (.first (problemAt start j))) ∧
      s.orchestrator.hub.published = blocks start inputs ∧
      (∀ j input, inputs[j]? = some input →
        (∀ k, 0 < k → k < input.outputCount → ∃ u,
          s.orchestrator.hub.inputs.get? ⟨problemAt start j, UInt32.ofNat k⟩ = some u ∧
          u.Continues input (problemAt start j) k) ∧
        ∀ t ∈ input.block (problemAt start j), ∀ w, w.isTracked = true →
          s.orchestrator.Serves w t) ∧
      (∀ t, (s.orchestrator.ledger.record? t).isSome ↔
        ∃ j input, inputs[j]? = some input ∧ IsRecent settings.retention inputs.length j ∧
          t ∈ input.block (problemAt start j)) ∧
      (∀ t r, s.orchestrator.ledger.record? t = some r → r.task = t ∧ r.isComplete = true) ∧
      s.orchestrator.ledger.last = (blocks start inputs).getLast? ∧
      s.orchestrator.hub.jobs = [] ∧ s.orchestrator.hub.channel.events = [] := by
  have hlasts : ∀ input ∈ inputs, input.extra.Lasts :=
    fun input hinput => (hreadable input hinput).mono fun _ hn => hn.lasts
  obtain ⟨houtcomes, hf⟩ := (fulfilled_new settings start responder).submitEach chance
    (by rw [List.length_nil]; omega) hfresh hlasts
  rw [List.nil_append] at hf
  refine ⟨_, _, rfl, ?_, hf.published, ?_, hf.isSome_record?_iff hwrap, ?_, hf.last, hf.jobs,
    hf.events⟩
  · rw [houtcomes]
    simp only [List.length_nil, Nat.zero_add]
  · intro j input hinput
    have hserved := hf.served j input hinput
    have hextra : input.extra.Lasts := hlasts input (List.mem_of_getElem? hinput)
    constructor
    · intro k hpos hk
      exact ⟨_, hserved.inputs k hk, Chain.continues_input hextra hpos⟩
    · intro t ht w htracked
      obtain ⟨i, hi, rfl⟩ := (Chain.mem_block (c := chainAt settings start j input)).mp ht
      exact hserved.serves hextra htracked hi
  · intro t r hr
    exact ⟨hf.consistent.record_task hr, hf.isComplete hr⟩

/-- A submission with a hint for the workers. -/
def hinted (outputs : UInt32) : Submission where
  brief := { modality := "image", shortDescription := "count the cells" }
  extra := {
    numOutputs := some outputs
    modelRestrains := ["resnet"]
    other := ⟨[("seed", .num (.int 7))], .cons nofun .nil, trivial, trivial⟩ }

/-- Three outputs are asked for and then none, at the end of the problem numbers. The carbon
footprints are ready at once, so the iterations overlap, and only one problem is kept. -/
theorem submissions_answered_hinted :
    (∀ input ∈ [hinted 3, hinted 0], input.IsFresh) ∧
    (∀ input ∈ [hinted 3, hinted 0], input.extra.IsReadable) ∧
    (4294967294 : UInt32).toNat + [hinted 3, hinted 0].length ≤ UInt32.size ∧
    ∃ outcomes s,
      submitEach ⟨fun j => if j.worker = .carbonFootprint then 0 else 40, fun _ _ => .zero⟩
        [hinted 3, hinted 0]
        (.new { retention := some 0 } { nextProblem := 4294967294, simulated := true }) =
          (outcomes, s) ∧
      outcomes = [.ok ⟨4294967294, 0⟩, .ok ⟨4294967295, 0⟩] ∧
      s.orchestrator.hub.published =
        [⟨4294967294, 0⟩, ⟨4294967294, 1⟩, ⟨4294967294, 2⟩, ⟨4294967295, 0⟩] ∧
      s.orchestrator.Serves .mlModelProvider ⟨4294967294, 2⟩ ∧
      s.orchestrator.ledger.record? ⟨4294967294, 2⟩ = none ∧
      s.orchestrator.ledger.last = some ⟨4294967295, 0⟩ := by
  have hfresh : ∀ input ∈ [hinted 3, hinted 0], input.IsFresh := by
    have hdescribed : Text.isBlankText "count the cells" = false := by decide
    have hone (outputs : UInt32) : (hinted outputs).IsFresh := ⟨hdescribed, rfl, rfl⟩
    exact List.forall_mem_cons.mpr ⟨hone 3, List.forall_mem_singleton.mpr (hone 0)⟩
  have hreadable : ∀ input ∈ [hinted 3, hinted 0], input.extra.IsReadable := by
    have hone (outputs : UInt32) : (hinted outputs).extra.IsReadable := by
      refine ⟨?_, ⟨by decide, by decide⟩, trivial⟩
      intro m hm
      rw [List.mem_singleton.mp hm]
      decide
    exact List.forall_mem_cons.mpr ⟨hone 3, List.forall_mem_singleton.mpr (hone 0)⟩
  refine ⟨hfresh, hreadable, by decide, ?_⟩
  obtain ⟨outcomes, s, hsubmit, houtcomes, hpublished, hproblems, hrecord, -, hlast, -⟩ :=
    submissions_answered { retention := some 0 } 4294967294 (fun r => r.accept r.configuration)
      ⟨fun j => if j.worker = .carbonFootprint then 0 else 40, fun _ _ => .zero⟩
      [hinted 3, hinted 0] hfresh hreadable (by decide)
  refine ⟨outcomes, s, hsubmit, houtcomes, hpublished.trans (by decide),
    (hproblems 0 (hinted 3) rfl).2 _ (by decide) _ rfl, ?_, hlast.trans (by decide)⟩
  rw [← Option.not_isSome_iff_eq_none, hrecord]
  rintro ⟨j, input, hinput, hrecent, hblock⟩
  have hlow : 2 ≤ j + 1 := hrecent 0 rfl
  have hhigh : j < 2 := (List.getElem?_eq_some_iff.mp hinput).1
  obtain rfl : j = 1 := by omega
  cases hinput
  exact absurd hblock (by decide)

end Session

end WorkerPipeline
