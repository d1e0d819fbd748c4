import DataHandling.Buffer.QueueRefinement
import DataHandling.Command.Readout
import DataHandling.Foundation.Execution

/-! What is left of the configuration after rounds of commands: everything before the first
`do_scrap`, and nothing after it. -/

namespace DataHandling
open MachineInt IterableQueueModel

namespace IterableQueueModel
variable {T : Type}

theorem size_prefillWrites (element : T) (n : ℕ) (q : IterableQueueModel T) :
    (prefillWrites element n q).size = q.size := by
  induction n generalizing q with
  | zero => rfl
  | succ n ih =>
    rw [prefillWrites, ih]
    exact size_write q element

theorem size_prefillTask {valueInit : T} {q q' : IterableQueueModel T}
    (h : prefillTask valueInit q = some q') : q'.size = q.size := by
  rw [size_flush h, size_prefillWrites]

end IterableQueueModel

structure Setup (Task : Type) where
  size : ℕ
  flags : AllocationFlags
  preprocessTasks : List Task
  postprocessTasks : List Task
  postprocessQueues : ℕ
  recordingOutput : Option DataRecorder

def DataHandlerConf.setup {Task : Type} (cfg : DataHandlerConf Task) : Setup Task where
  size := u32 cfg.latencyBuffer.size
  flags := cfg.latencyBuffer.flags
  preprocessTasks := cfg.dataProcessor.preprocessTasks
  postprocessTasks := cfg.dataProcessor.postprocessTasks
  postprocessQueues := cfg.dataProcessor.postprocessTasks.length
  recordingOutput := cfg.dataRecorder

def Setup.scrapped (Task : Type) : Setup Task := ⟨2, .default, [], [], 0, none⟩

namespace Readout
variable {T Task : Type}

def setup (s : Readout T Task) : Setup Task where
  size := s.latencyBuffer.queue.size
  flags := s.latencyBuffer.flags
  preprocessTasks := s.rawProcessor.preprocessFunctions
  postprocessTasks := s.rawProcessor.postProcessFunctions
  postprocessQueues := s.rawProcessor.itemsToPostprocessQueues.length
  recordingOutput := s.requestHandler.bufferedWriter

structure Restored (cfg : DataHandlerConf Task) (s : Readout T Task) : Prop where
  capacity : s.latencyBuffer.queue.capacity = cfg.latencyBuffer.size - 1
  flags : s.latencyBuffer.flags = cfg.latencyBuffer.flags
  preprocess : s.rawProcessor.preprocessFunctions = cfg.dataProcessor.preprocessTasks
  postprocess : s.rawProcessor.postProcessFunctions = cfg.dataProcessor.postprocessTasks
  queues : s.rawProcessor.itemsToPostprocessQueues.length =
    cfg.dataProcessor.postprocessTasks.length
  recording : s.requestHandler.bufferedWriter = cfg.dataRecorder

def round (runs : List (List T)) : List (Command T) :=
  .doConf :: runs.flatMap (fun payloads => .doStart :: payloads.map .payload ++ [.doStop]) ++
    [.doScrap]

def history (rounds : List (List (List T))) : List (Command T) :=
  rounds.flatMap round ++ [.doConf]

section Init
variable {platform : Platform} {valueInit : T}

theorem allocateMemory_setup {b b' : AllocatedRing T} {cfg : LatencyBufferConf}
    (h : b.allocateMemory platform cfg = some b') :
    b'.queue.size = u32 cfg.size ∧ b'.flags = cfg.flags := by
  unfold AllocatedRing.allocateMemory at h
  split at h
  · cases h
  · obtain rfl := Option.some.inj h
    exact ⟨rfl, rfl⟩

theorem allocatedRing_conf {b b' : AllocatedRing T} {cfg : LatencyBufferConf} {badAlloc : Bool}
    (h : b.conf platform valueInit cfg = some (badAlloc, b')) :
    2 ≤ cfg.size ∧ b'.queue.size = u32 cfg.size ∧ b'.flags = cfg.flags := by
  unfold AllocatedRing.conf at h
  split at h
  · cases h
  · next hsmall =>
    obtain ⟨b₁, hb₁, h⟩ := Option.bind_eq_some_iff.mp h
    obtain ⟨hsize, hflags⟩ := allocateMemory_setup hb₁
    refine ⟨Nat.not_lt.mp hsmall, ?_⟩
    dsimp only at h
    split_ifs at h
    · cases h
      exact ⟨hsize, hflags⟩
    · obtain ⟨b₂, hb₂, heq⟩ := Option.map_eq_some_iff.mp h
      obtain ⟨queue, hqueue, rfl⟩ := Option.map_eq_some_iff.mp hb₂
      cases heq
      exact ⟨(size_prefillTask hqueue).trans hsize, hflags⟩
    · cases h
      exact ⟨hsize, hflags⟩

theorem foldl_addPreprocessTask (tasks : List Task) (p : RawDataProcessor Task) :
    tasks.foldl RawDataProcessor.addPreprocessTask p =
      { p with preprocessFunctions := p.preprocessFunctions ++ tasks } := by
  induction tasks generalizing p with
  | nil => rw [List.foldl_nil, List.append_nil]
  | cons task tasks ih =>
    rw [List.foldl_cons, ih, RawDataProcessor.addPreprocessTask, List.append_assoc]
    rfl

theorem foldl_addPostprocessTask (tasks : List Task) (p : RawDataProcessor Task) :
    tasks.foldl RawDataProcessor.addPostprocessTask p =
      { p with
        postProcessThreads := p.postProcessThreads ++ List.replicate tasks.length ""
        postProcessFunctions := p.postProcessFunctions ++ tasks } := by
  induction tasks generalizing p with
  | nil => simp
  | cons task tasks ih =>
    rw [List.foldl_cons, ih, RawDataProcessor.addPostprocessTask, List.length_cons,
      List.replicate_succ, List.append_assoc, List.append_assoc]
    rfl

theorem requestHandler_conf {canOpen : DataRecorder → Bool} {h : RequestHandler}
    {cfg : RequestHandlerConf} {outOfRange : Bool}
    (hconf : RequestHandler.init.conf canOpen cfg = some (outOfRange, h)) :
    h.bufferedWriter = cfg.dataRecorder := by
  obtain ⟨h₁, hrec, heq⟩ := Option.map_eq_some_iff.mp hconf
  have hwriter : h₁.bufferedWriter = cfg.dataRecorder := by
    unfold RequestHandler.confRecording at hrec
    split at hrec
    · next dr _ hdr =>
      obtain ⟨output, hopen, rfl⟩ := Option.map_eq_some_iff.mp hrec
      unfold openWriter at hopen
      split_ifs at hopen
      rw [hdr, ← hopen]
    · next hnone =>
      obtain rfl := Option.some.inj hrec
      cases hdr : cfg.dataRecorder with
      | none => rfl
      | some dr => exact absurd hdr (hnone dr rfl)
  split_ifs at heq
  · obtain ⟨-, rfl⟩ := Prod.mk.inj heq
    exact hwriter
  · obtain ⟨-, rfl⟩ := Prod.mk.inj heq
    exact hwriter

theorem init_setup {cfg : DataHandlerConf Task} {s : Readout T Task}
    (hinit : init platform valueInit cfg = some s) :
    2 ≤ cfg.latencyBuffer.size ∧ s.setup = cfg.setup := by
  obtain ⟨⟨badAlloc, latencyBuffer⟩, hring, hinit⟩ := Option.bind_eq_some_iff.mp hinit
  obtain ⟨⟨outOfRange, requestHandler⟩, hhandler, rfl⟩ := Option.map_eq_some_iff.mp hinit
  obtain ⟨h2, hsize, hflags⟩ := allocatedRing_conf hring
  have hwriter := requestHandler_conf hhandler
  refine ⟨h2, ?_⟩
  simp [setup, DataHandlerConf.setup, hsize, hflags, hwriter, RawDataProcessor.confDerived,
    RawDataProcessor.conf, foldl_addPreprocessTask, foldl_addPostprocessTask,
    RawDataProcessor.init, DataHandlerConf.requestHandler]

end Init

section Steps
variable {platform : Platform} {s s' : Readout T Task}

theorem step_setup {command : Command T} (hstep : step platform s command = some s') :
    (command = .doScrap ∧ s'.setup = .scrapped Task) ∨
      (command ≠ .doScrap ∧ s'.setup = s.setup) := by
  cases command with
  | doConf | doStart =>
    cases hstep
    exact .inr ⟨nofun, rfl⟩
  | payload x =>
    cases hstep
    refine .inr ⟨nofun, ?_⟩
    simp only [setup, payload, size_write]
  | doStop =>
    rw [step, doStop] at hstep
    obtain ⟨queue, hqueue, rfl⟩ := Option.map_eq_some_iff.mp hstep
    refine .inr ⟨nofun, ?_⟩
    simp only [setup, size_flush hqueue]
  | doScrap =>
    cases hstep
    exact .inl ⟨rfl, rfl⟩

theorem run_setup {commands : List (Command T)}
    (hrun : Execution.run (step platform) s commands = some s') :
    (.doScrap ∈ commands ∧ s'.setup = .scrapped Task) ∨
      (.doScrap ∉ commands ∧ s'.setup = s.setup) := by
  induction commands generalizing s with
  | nil =>
    cases hrun
    exact .inr ⟨nofun, rfl⟩
  | cons command commands ih =>
    obtain ⟨t, ht, hrest⟩ := Execution.run_cons.mp hrun
    rcases ih hrest with ⟨hmem, hscrapped⟩ | ⟨hnot, hsetup⟩
    · exact .inl ⟨List.mem_cons_of_mem _ hmem, hscrapped⟩
    · rcases step_setup ht with ⟨rfl, hscrapped⟩ | ⟨hcommand, hkept⟩
      · exact .inl ⟨List.mem_cons_self, hsetup.trans hscrapped⟩
      · refine .inr ⟨fun hmem => ?_, hsetup.trans hkept⟩
        rcases List.mem_cons.mp hmem with heq | hmem
        · exact hcommand heq.symm
        · exact hnot hmem

end Steps

def Flushable (s : Readout T Task) : Prop :=
  (∃ xs, Represents s.latencyBuffer.queue xs) ∧ s.latencyBuffer.queue.size < 2147483648

section Flushable
variable {platform : Platform} {valueInit : T}

theorem represents_allocated {size : ℕ} (h2 : 2 ≤ size) (hsize : size < 4294967296)
    (overflowCtr : Int32) :
    Represents { fresh T size with overflowCtr := overflowCtr } [] :=
  have h := represents_fresh (T := T) h2 hsize
  ⟨h.two_le_size, h.size_lt, h.read_lt, h.length_lt, h.write_eq, h.stored, h.free⟩

theorem init_flushable {cfg : DataHandlerConf Task} {s : Readout T Task}
    (hinit : init platform valueInit cfg = some s) (hsize : cfg.latencyBuffer.size < 2147483648) :
    Flushable s := by
  have hsetup := (init_setup hinit).2
  obtain ⟨⟨badAlloc, b⟩, hring, hinit⟩ := Option.bind_eq_some_iff.mp hinit
  obtain ⟨_, _, rfl⟩ := Option.map_eq_some_iff.mp hinit
  have h2 := (allocatedRing_conf hring).1
  have hu32 : u32 cfg.latencyBuffer.size = cfg.latencyBuffer.size := u32_of_lt (by omega)
  refine ⟨?_, ?_⟩
  · unfold AllocatedRing.conf at hring
    split at hring
    · cases hring
    · obtain ⟨b₁, hb₁, hring⟩ := Option.bind_eq_some_iff.mp hring
      have hstored : Represents { b₁.queue with readIndex := 0, writeIndex := 0 } [] := by
        unfold AllocatedRing.allocateMemory at hb₁
        split at hb₁
        · cases hb₁
        · obtain rfl := Option.some.inj hb₁
          rw [hu32]
          exact represents_allocated h2 (by omega) _
      dsimp only at hring
      split_ifs at hring
      · cases hring
        exact ⟨[], hstored⟩
      · obtain ⟨b₂, hb₂, heq⟩ := Option.map_eq_some_iff.mp hring
        obtain ⟨queue, hqueue, rfl⟩ := Option.map_eq_some_iff.mp hb₂
        cases heq
        obtain ⟨ys, hys, hsize'⟩ := prefillWrites_represents valueInit
          (capacity { b₁.queue with readIndex := 0, writeIndex := 0 }) hstored
        obtain ⟨q', hq', hrep, _⟩ := hys.flush_eq (by
          rw [hsize', (allocateMemory_setup hb₁).1, hu32]
          exact hsize)
        rw [prefillTask, hq'] at hqueue
        obtain rfl := Option.some.inj hqueue
        exact ⟨[], hrep⟩
      · cases hring
        exact ⟨[], hstored⟩
  · have hs := congrArg Setup.size hsetup
    rw [DataHandlerConf.setup] at hs
    change b.queue.size < 2147483648
    change b.queue.size = u32 _ at hs
    rw [hs, hu32]
    exact hsize

theorem step_flushable {s : Readout T Task} (h : Flushable s) (command : Command T) :
    ∃ s', step platform s command = some s' ∧ Flushable s' := by
  obtain ⟨⟨xs, hxs⟩, hsize⟩ := h
  cases command with
  | doConf | doStart => exact ⟨_, rfl, ⟨xs, hxs⟩, hsize⟩
  | payload x =>
    refine ⟨_, rfl, hxs.exists_write x, ?_⟩
    rw [payload, size_write]
    exact hsize
  | doStop =>
    obtain ⟨q', hq', hrep, hkept⟩ := hxs.flush_eq hsize
    refine ⟨_, by rw [step, doStop, hq']; rfl, ⟨[], hrep⟩, ?_⟩
    rw [hkept]
    exact hsize
  | doScrap =>
    refine ⟨_, rfl, ⟨[], represents_allocated (by decide) (by decide) _⟩, ?_⟩
    change 2 < 2147483648
    decide

theorem run_completes {cfg : DataHandlerConf Task} {s₀ : Readout T Task}
    (hinit : init platform valueInit cfg = some s₀) (hsize : cfg.latencyBuffer.size < 2147483648)
    (commands : List (Command T)) : ∃ s, Execution.run (step platform) s₀ commands = some s := by
  have h := init_flushable hinit hsize
  clear hinit
  induction commands generalizing s₀ with
  | nil => exact ⟨s₀, rfl⟩
  | cons command commands ih =>
    obtain ⟨s', hs', hflushable⟩ : ∃ s', step platform s₀ command = some s' ∧ Flushable s' :=
      step_flushable h command
    obtain ⟨s, hs⟩ := ih hflushable
    exact ⟨s, Execution.run_cons.mpr ⟨s', hs', hs⟩⟩

end Flushable

theorem doScrap_mem_history_iff (rounds : List (List (List T))) :
    Command.doScrap ∈ history rounds ↔ rounds ≠ [] := by
  constructor
  · rintro hmem rfl
    simp [history] at hmem
  · intro hne
    obtain ⟨runs, rest, rfl⟩ := List.exists_cons_of_ne_nil hne
    simp [history, round]

/-- A configuration that asks for what a scrapped readout has. -/
def AsksForNothing (cfg : DataHandlerConf Task) : Prop :=
  cfg.latencyBuffer.size = 2 ∧ cfg.latencyBuffer.flags = .default ∧
    cfg.dataProcessor.preprocessTasks = [] ∧ cfg.dataProcessor.postprocessTasks = [] ∧
    cfg.dataRecorder = none

theorem capacity_eq_iff {size : ℕ} {q : IterableQueueModel T} (h2 : 2 ≤ size)
    (hq : q.size = u32 size) : q.capacity = size - 1 ↔ size ≤ 4294967296 := by
  rw [capacity, hq]
  unfold u32
  omega

theorem restored_iff_of_configured {cfg : DataHandlerConf Task} {s : Readout T Task}
    (h2 : 2 ≤ cfg.latencyBuffer.size) (hsetup : s.setup = cfg.setup) :
    Restored cfg s ↔ cfg.latencyBuffer.size ≤ 4294967296 := by
  simp only [setup, DataHandlerConf.setup, Setup.mk.injEq] at hsetup
  obtain ⟨hsize, hflags, hpre, hpost, hqueues, hwriter⟩ := hsetup
  rw [← capacity_eq_iff h2 hsize]
  exact ⟨Restored.capacity, fun hcapacity => ⟨hcapacity, hflags, hpre, hpost, hqueues, hwriter⟩⟩

theorem restored_iff_of_scrapped {cfg : DataHandlerConf Task} {s : Readout T Task}
    (h2 : 2 ≤ cfg.latencyBuffer.size) (hsetup : s.setup = .scrapped Task) :
    Restored cfg s ↔ AsksForNothing cfg := by
  simp only [setup, Setup.scrapped, Setup.mk.injEq] at hsetup
  obtain ⟨hsize, hflags, hpre, hpost, hqueues, hwriter⟩ := hsetup
  have hcapacity : s.latencyBuffer.queue.capacity = 1 := by
    rw [capacity, hsize]
    rfl
  constructor
  · intro h
    have hone := h.capacity
    rw [hcapacity] at hone
    exact ⟨by omega, by rw [← h.flags, hflags], by rw [← h.preprocess, hpre],
      by rw [← h.postprocess, hpost], by rw [← h.recording, hwriter]⟩
  · rintro ⟨hc2, hcflags, hcpre, hcpost, hcrecorder⟩
    exact ⟨by rw [hcapacity, hc2], by rw [hflags, hcflags], by rw [hpre, hcpre],
      by rw [hpost, hcpost], by rw [hqueues, hcpost]; rfl, by rw [hwriter, hcrecorder]⟩

/-- After any rounds of commands and one more `do_conf`, the configured state is there just if
nothing has been scrapped yet, or there is nothing to restore. -/
theorem run_restored_iff (platform : Platform) (valueInit : T) (cfg : DataHandlerConf Task)
    (s₀ : Readout T Task) (hinit : init platform valueInit cfg = some s₀)
    (rounds : List (List (List T))) (s : Readout T Task)
    (hrun : Execution.run (step platform) s₀ (history rounds) = some s) :
    Restored cfg s ↔
      (rounds = [] ∧ cfg.latencyBuffer.size ≤ 4294967296) ∨ AsksForNothing cfg := by
  obtain ⟨h2, hsetup₀⟩ := init_setup hinit
  have hscrap := doScrap_mem_history_iff rounds
  rcases run_setup hrun with ⟨hmem, hscrapped⟩ | ⟨hnot, hkept⟩
  · have hrounds := hscrap.mp hmem
    rw [restored_iff_of_scrapped h2 hscrapped]
    simp [hrounds]
  · have hrounds : rounds = [] := by
      by_contra hne
      exact hnot (hscrap.mpr hne)
    rw [restored_iff_of_configured h2 (hkept.trans hsetup₀)]
    refine ⟨fun hsize => .inl ⟨hrounds, hsize⟩, ?_⟩
    rintro (⟨-, hsize⟩ | ⟨hc2, -⟩)
    · exact hsize
    · omega

section Modules

def plainPlatform : Platform := ⟨false, fun _ => true, fun _ => true⟩

def recordingModule : DataHandlerConf String where
  latencyBuffer := ⟨16, ⟨false, 0, false, 4096⟩, true⟩
  dataProcessor := ⟨["check timestamps"], ["find hits"], 100, "postprocess-"⟩
  popLimitPct := 4 / 5
  popSizePct := 1 / 2
  dataRecorder := some ⟨"output.bin", 8388608, "None", true⟩
  callbackMode := false
  generateTimesync := true

def initialized : Readout ℕ String :=
  (init plainPlatform 0 recordingModule).get (by decide +kernel)

def bareModule : DataHandlerConf String where
  latencyBuffer := ⟨2, .default, false⟩
  dataProcessor := ⟨[], [], 100, "postprocess-"⟩
  popLimitPct := 4 / 5
  popSizePct := 1 / 2
  dataRecorder := none
  callbackMode := false
  generateTimesync := true

def bareInitialized : Readout ℕ String :=
  (init plainPlatform 0 bareModule).get (by decide +kernel)

theorem run_restored_iff_first :
    Restored recordingModule ((Execution.run (step plainPlatform) initialized (history [])).get
        (by decide +kernel)) ∧
      Restored bareModule ((Execution.run (step plainPlatform) bareInitialized
        (history [[[100]], [[110], [120]]])).get (by decide +kernel)) :=
  ⟨(run_restored_iff plainPlatform 0 recordingModule initialized (Option.some_get _).symm [] _
      (Option.some_get _).symm).mpr (.inl ⟨rfl, by decide⟩),
    (run_restored_iff plainPlatform 0 bareModule bareInitialized (Option.some_get _).symm
      [[[100]], [[110], [120]]] _ (Option.some_get _).symm).mpr (.inr ⟨rfl, rfl, rfl, rfl, rfl⟩)⟩

def restarted : Readout ℕ String :=
  (Execution.run (step plainPlatform) initialized (history [[[100, 110]]])).get (by decide +kernel)

theorem not_restored_of_restarted :
    ¬ ∀ (platform : Platform) (valueInit : ℕ) (cfg : DataHandlerConf String)
      (s₀ : Readout ℕ String), init platform valueInit cfg = some s₀ →
      ∀ (rounds : List (List (List ℕ))) (s : Readout ℕ String),
        Execution.run (step platform) s₀ (history rounds) = some s → Restored cfg s := by
  intro h
  have hcapacity := (h plainPlatform 0 recordingModule initialized (Option.some_get _).symm
    [[[100, 110]]] restarted (Option.some_get _).symm).capacity
  exact absurd hcapacity (by decide +kernel)

end Modules

end Readout
end DataHandling
