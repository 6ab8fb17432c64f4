import QaPlatform.Pipeline.Runs
import QaPlatform.Pipeline.StatusTree

/-!
# Callbacks and coherent trees

The tree operations of the service as moves of the statuses. A callback that has been validated
against a coherent tree is applied without raising and leaves a coherent tree.
-/

namespace QaPlatform.Pipeline

open PipelineStatus

variable {now : Instant} {message : Option String} {note : String} {a b : PipelineStatus}

/-! ## Nodes -/

theorem moves_transition_self (a : PipelineStatus) :
    Edit.Moves ResultState.status (transition now a message) a a := by
  intro s hs
  refine ⟨s, ?_, hs⟩
  unfold transition
  rw [Edit.read_bind, if_pos hs]
  rfl

theorem moves_transition (hne : a ≠ b) (hallowed : b ∈ allowedTransitions a) :
    Edit.Moves ResultState.status (transition now b message) a b := by
  rintro s rfl
  unfold transition
  rw [Edit.read_bind, if_neg hne, if_neg (not_not_intro hallowed)]
  exact ⟨_, rfl, rfl⟩

theorem moves_start (h : a.Active) : Edit.Moves ResultState.status (start now) a .running := by
  intro s hs
  unfold start
  rw [Edit.read_bind]
  rcases h with rfl | rfl
  · rw [if_pos hs]
    exact moves_transition (by decide) (by decide) s hs
  · rw [if_neg (by rw [hs]; decide), if_neg (not_not_intro hs)]
    exact ⟨s, rfl, hs⟩

theorem moves_finish (hb : b.Terminal) (h : a.Active ∨ a = b) :
    Edit.Moves ResultState.status (finish now b message) a b := by
  intro s hs
  unfold finish
  rw [if_neg (not_not_intro hb), Edit.read_bind]
  rcases h with hactive | rfl
  · have hne : s.status ≠ b := by
      rintro rfl
      exact not_terminal_iff.mpr (hs ▸ hactive) hb
    rw [if_neg hne]
    split
    · next hqueued =>
      have hrunning : Edit.Moves ResultState.status (transition now b message) .running b := by
        apply moves_transition
        · rintro rfl
          revert hb
          decide
        · rcases hb with rfl | rfl | rfl <;> decide
      exact ((moves_start hactive).bind hrunning) s hs
    · next hqueued =>
      refine moves_transition ?_ ?_ s hs
      · rw [← hs]
        exact hne
      · rcases hactive with rfl | rfl
        · obtain rfl : b = .cancelled := Decidable.byContradiction fun h => hqueued ⟨hs, h⟩
          decide
        · rcases hb with rfl | rfl | rfl <;> decide
  · rw [if_pos hs]
    exact ⟨s, rfl, hs⟩

theorem moves_cancelUnfinished (a : PipelineStatus) :
    Edit.Moves ResultState.status (cancelUnfinished now note) a a.cancelled? := by
  apply Edit.moves_read
  rintro s rfl
  rcases active_or_terminal s.status with hactive | hterminal
  · rw [if_pos (not_terminal_iff.mpr hactive), cancelled?_of_active hactive]
    exact moves_finish (.inr (.inr rfl)) (.inl hactive)
  · rw [if_neg (not_not_intro hterminal), cancelled?_of_terminal hterminal]
    exact Edit.moves_pure _ _

/-! ## Stages and jobs -/

/-- The status of a stage and those of its jobs. -/
def PipelineStageResult.shape (stage : PipelineStageResult) : StageShape :=
  (stage.status, stage.jobs.map (·.status))

/-- The status of a run and the shapes of its stages. -/
def PipelineRun.shape (run : PipelineRun) : RunShape :=
  (run.status, run.stages.map PipelineStageResult.shape)

section
variable {js js' : List PipelineStatus} {j : Nat} {x : Change ResultState Unit}

namespace PipelineStageResult

theorem moves_node (h : Edit.Moves ResultState.status x a b) (js : List PipelineStatus) :
    Edit.Moves shape (node x) (a, js) (b, js) := by
  refine h.zoom (fun s hs => congrArg Prod.fst hs) fun s r hs hr => ?_
  obtain ⟨-, rfl⟩ := Prod.mk.inj hs
  exact Prod.ext hr rfl

theorem moves_overJobs {x : Change (List PipelineJobResult) Unit}
    (h : Edit.Moves (List.map (·.status)) x js js') (a : PipelineStatus) :
    Edit.Moves shape (overJobs x) (a, js) (a, js') := by
  refine h.zoom (fun s hs => congrArg Prod.snd hs) fun s r hs hr => ?_
  obtain ⟨rfl, -⟩ := Prod.mk.inj hs
  exact Prod.ext rfl hr

theorem moves_job_node (h : Edit.Moves ResultState.status x a b) :
    Edit.Moves (·.status) (PipelineJobResult.node x) a b :=
  h.zoom (fun _ hs => hs) fun _ _ _ hr => hr

/-- A job changes. -/
theorem moves_job {s : PipelineStatus} (hj : js[j]? = some a)
    (h : Edit.Moves ResultState.status x a b) :
    Edit.Moves shape (job j x) (s, js) (s, js.set j b) :=
  moves_overJobs (Edit.Moves.nth hj (moves_job_node h)) s

theorem moves_cancelUnfinishedJobs (s : PipelineStatus) (js : List PipelineStatus) :
    Edit.Moves shape (cancelUnfinishedJobs now note) (s, js) (s, js.map cancelled?) :=
  moves_overJobs (Edit.Moves.each (fun a => moves_job_node (moves_cancelUnfinished a)) js) s

theorem jobsSucceeded_iff (stage : PipelineStageResult) :
    stage.jobsSucceeded = true ↔ ∀ a ∈ stage.shape.2, a = .succeeded := by
  simp [jobsSucceeded, shape]

end PipelineStageResult

end

/-! ## Runs -/

namespace PipelineRun

variable {l l' : List StageShape} {i : Nat} {stage stage' : StageShape}

theorem moves_node {x : Change ResultState Unit} (h : Edit.Moves ResultState.status x a b)
    (l : List StageShape) : Edit.Moves shape (node x) (a, l) (b, l) := by
  refine h.zoom (fun s hs => congrArg Prod.fst hs) fun s r hs hr => ?_
  obtain ⟨-, rfl⟩ := Prod.mk.inj hs
  exact Prod.ext hr rfl

theorem moves_overStages {x : Change (List PipelineStageResult) Unit}
    (h : Edit.Moves (List.map PipelineStageResult.shape) x l l') (a : PipelineStatus) :
    Edit.Moves shape (overStages x) (a, l) (a, l') := by
  refine h.zoom (fun s hs => congrArg Prod.snd hs) fun s r hs hr => ?_
  obtain ⟨rfl, -⟩ := Prod.mk.inj hs
  exact Prod.ext rfl hr

/-- A stage changes. -/
theorem moves_stage {x : Change PipelineStageResult Unit} (hi : l[i]? = some stage)
    (h : Edit.Moves PipelineStageResult.shape x stage stage') :
    Edit.Moves shape (PipelineRun.stage i x) (a, l) (a, l.set i stage') :=
  moves_overStages (Edit.Moves.nth hi h) a

theorem moves_cancelUnfinishedChildren (a : PipelineStatus) (l : List StageShape) :
    Edit.Moves shape (cancelUnfinishedChildren now note) (a, l) (a, l.map cancelStage) := by
  refine moves_overStages (Edit.Moves.each ?_ l) a
  rintro ⟨s, js⟩
  exact (PipelineStageResult.moves_cancelUnfinishedJobs s js).bind
    (PipelineStageResult.moves_node (moves_cancelUnfinished s) _)

theorem moves_markTerminal (ha : a.Terminal) (l : List StageShape) :
    Edit.Moves shape markTerminal (a, l) (a, l) := by
  apply Edit.moves_read
  intro run hrun
  obtain ⟨rfl, -⟩ := Prod.mk.inj hrun
  rw [if_neg (not_not_intro ha)]
  exact Edit.moves_pure _ _

theorem moves_failRun (h : a.Active ∨ a = .failed) (l : List StageShape) :
    Edit.Moves shape (failRun now message) (a, l) (.failed, l.map cancelStage) :=
  (moves_node (moves_finish (.inr (.inl rfl)) h) l).bind
    ((moves_cancelUnfinishedChildren _ l).bind (moves_markTerminal (.inr (.inl rfl)) _))

/-- The run and its children are cancelled. -/
theorem moves_cancelled (h : a.Active ∨ a = .cancelled) (l : List StageShape) :
    Edit.Moves shape (do
      node (finish now .cancelled message)
      cancelUnfinishedChildren now note
      markTerminal) (a, l) (.cancelled, l.map cancelStage) :=
  (moves_node (moves_finish (.inr (.inr rfl)) h) l).bind
    ((moves_cancelUnfinishedChildren _ l).bind (moves_markTerminal (.inr (.inr rfl)) _))

/-- A stage succeeds when all of its jobs have. -/
theorem moves_aggregateStage {s : PipelineStatus} {js : List PipelineStatus}
    (hi : l[i]? = some (s, js)) (hs : s.Active ∨ s = .succeeded) (a : PipelineStatus) :
    Edit.Moves shape (aggregateStage now (some i)) (a, l) (a, l.set i (s.counted js, js)) := by
  refine moves_stage hi (Edit.moves_read ?_)
  intro current hcurrent
  have hall := PipelineStageResult.jobsSucceeded_iff current
  rw [hcurrent] at hall
  unfold counted
  by_cases h : ∀ child ∈ js, child = .succeeded
  · rw [if_pos h, if_pos (hall.mpr h)]
    exact PipelineStageResult.moves_node (moves_finish (.inl rfl) hs) js
  · rw [if_neg h, if_neg fun h' => h (hall.mp h')]
    exact Edit.moves_pure _ _

/-- The run succeeds when all of its stages have. -/
theorem moves_aggregateSuccess {stageIndex : Option Nat} (ha : a.Active ∨ a = .succeeded)
    (hstage : Edit.Moves shape (aggregateStage now stageIndex) (a, l) (a, l')) :
    Edit.Moves shape (aggregateSuccess now stageIndex) (a, l)
      (a.counted (l'.map Prod.fst), l') := by
  refine hstage.bind (Edit.moves_read ?_)
  intro run hrun
  obtain ⟨rfl, rfl⟩ := Prod.mk.inj hrun
  have hall : (run.stages.all (·.status = .succeeded)) = true
      ↔ ∀ s ∈ (run.stages.map PipelineStageResult.shape).map Prod.fst, s = .succeeded := by
    simp [PipelineStageResult.shape]
  unfold counted
  by_cases h : ∀ s ∈ (run.stages.map PipelineStageResult.shape).map Prod.fst, s = .succeeded
  · rw [if_pos h, if_pos (hall.mpr h)]
    exact (moves_node (moves_finish (.inl rfl) ha) _).bind (moves_markTerminal (.inl rfl) _)
  · rw [if_neg h, if_neg fun h' => h (hall.mp h')]
    exact Edit.moves_pure _ _

/-! ## Callbacks -/

theorem allowed_cases (h : assertTransitionAllowed a b = .ok ()) :
    a = b ∨ a.Active ∧ b ≠ .queued := by
  unfold assertTransitionAllowed at h
  split at h
  · next heq => exact .inl heq
  · split at h
    · next hqueued =>
      refine .inr ⟨.inl hqueued.1, ?_⟩
      rcases hqueued.2 with rfl | rfl <;> decide
    · have hmem := not_not.mp (refuse_eq_ok.mp h)
      revert hmem
      cases a <;> cases b <;> decide

/-- A transition that is allowed ends a node or leaves it as it is. -/
theorem finishes (h : assertTransitionAllowed a b = .ok ()) : a.Active ∨ a = b :=
  (allowed_cases h).symm.imp_left And.left

variable {callback : PipelineCallbackRequest}

/-- A run ends in the tree that is left when it succeeds, fails or is cancelled. -/
theorem moves_applyPipelineCallback (h : Coherent (a, l))
    (hallowed : assertTransitionAllowed a callback.status = .ok ())
    (hsucceeded : callback.status = .succeeded → ∀ s ∈ l, s.1 = .succeeded) :
    ∃ t, Edit.Moves shape (applyPipelineCallback now callback) (a, l) t ∧ Coherent t := by
  unfold applyPipelineCallback
  cases hstatus : callback.status with
  | queued =>
    rw [hstatus] at hallowed
    obtain rfl : a = .queued := (allowed_cases hallowed).resolve_right fun hactive => hactive.2 rfl
    exact ⟨_, moves_node (moves_transition_self _) l, h⟩
  | running =>
    rw [hstatus] at hallowed
    have hactive : a.Active := (finishes hallowed).elim (fun hactive => hactive) .inr
    exact ⟨_, moves_node (moves_start hactive) l, h.begin hactive⟩
  | succeeded =>
    -- the run has succeeded with the last of its stages
    have hall : ∀ s ∈ l.map Prod.fst, s = .succeeded := by
      intro s hs
      obtain ⟨stage, hstage, rfl⟩ := List.mem_map.mp hs
      exact hsucceeded hstatus stage hstage
    obtain rfl : a = .succeeded := h.stages.succeeded_iff.mpr hall
    exact ⟨_, (moves_node (moves_finish (.inl rfl) (.inr rfl)) l).bind
      (moves_markTerminal (.inl rfl) l), h⟩
  | failed =>
    rw [hstatus] at hallowed
    exact ⟨_, moves_failRun (finishes hallowed) l, h.broken (.inl rfl) (finishes hallowed)⟩
  | cancelled =>
    rw [hstatus] at hallowed
    exact ⟨_, moves_cancelled (finishes hallowed) l, h.broken (.inr rfl) (finishes hallowed)⟩

variable {s : PipelineStatus} {js : List PipelineStatus} {stageName jobName : String} {j : Nat}

/-- A stage of an active run that has been allowed to end has not been broken before. -/
theorem stage_active (h : Coherent (a, l)) (hrun : a.Active) (hi : l[i]? = some (s, js))
    (hb : b.Broken) (hallowed : assertTransitionAllowed s b = .ok ()) : s.Active := by
  rcases finishes hallowed with hactive | rfl
  · exact hactive
  · have hfits := fits_running_of_active hrun (h.fits hi)
    rcases hb with rfl | rfl <;> cases hfits

/-- The stage at its index is left as it is. -/
theorem set_same (hi : l[i]? = some stage) : l.set i stage = l := by
  obtain ⟨hlength, rfl⟩ := List.getElem?_eq_some_iff.mp hi
  exact List.set_getElem_self hlength

theorem getElem?_set_same (hi : l[i]? = some stage) : (l.set i stage')[i]? = some stage' :=
  List.getElem?_set_self (List.getElem?_eq_some_iff.mp hi).1

/-- A stage of an active run begins, ends with all of its jobs, or breaks the run. -/
theorem moves_applyStageCallback (h : Coherent (a, l)) (hrun : a.Active)
    (hi : l[i]? = some (s, js)) (hallowed : assertTransitionAllowed s callback.status = .ok ())
    (hsucceeded : callback.status = .succeeded → ∀ child ∈ js, child = .succeeded) :
    ∃ t, Edit.Moves shape (applyStageCallback now callback i stageName) (a, l) t
      ∧ Coherent t := by
  have hlength : i < l.length := (List.getElem?_eq_some_iff.mp hi).1
  have hfamily : Family s js := h.family hi
  have hstart : Edit.Moves shape (node (start now)) (a, l) (.running, l) :=
    moves_node (moves_start hrun) l
  unfold applyStageCallback
  cases hstatus : callback.status with
  | queued =>
    rw [hstatus] at hallowed
    obtain rfl : s = .queued := (allowed_cases hallowed).resolve_right fun hactive => hactive.2 rfl
    refine ⟨_, moves_stage hi (PipelineStageResult.moves_node (moves_transition_self _) js), ?_⟩
    rw [set_same hi]
    exact h
  | running =>
    rw [hstatus] at hallowed
    have hactive : s.Active := (finishes hallowed).elim (fun hactive => hactive) .inr
    exact ⟨_, hstart.bind
      (moves_stage hi (PipelineStageResult.moves_node (moves_start hactive) js)),
      (h.begin hrun).set_active hlength (hfamily.begin hactive) (.inr rfl)⟩
  | succeeded =>
    -- the stage has succeeded with the last of its jobs
    obtain rfl : s = .succeeded := hfamily.succeeded_iff.mpr (hsucceeded hstatus)
    have hset : (l.set i (.succeeded, js))[i]? = some (.succeeded, js) := getElem?_set_same hi
    refine ⟨_, hstart.bind ((moves_stage hi ?_).bind (moves_aggregateSuccess (.inl (.inr rfl))
      (moves_aggregateStage hset (.inr rfl) .running))), ?_⟩
    · exact PipelineStageResult.moves_node (moves_finish (.inl rfl) (.inr rfl)) js
    rw [List.set_set, hfamily.counted_eq]
    exact (h.begin hrun).count hfamily rfl
  | failed =>
    rw [hstatus] at hallowed
    have hactive : s.Active := stage_active h hrun hi (.inl rfl) hallowed
    refine ⟨_, hstart.bind ((moves_stage hi ?_).bind (moves_failRun (.inl (.inr rfl)) _)),
      (h.begin hrun).break_at (.inr rfl) (.inl rfl) hlength (hfamily.break_ hactive (.inl rfl))⟩
    exact (PipelineStageResult.moves_node (moves_finish (.inr (.inl rfl)) (.inl hactive)) js).bind
      (PipelineStageResult.moves_cancelUnfinishedJobs .failed js)
  | cancelled =>
    rw [hstatus] at hallowed
    have hactive : s.Active := stage_active h hrun hi (.inr rfl) hallowed
    refine ⟨_, (moves_stage hi ?_).bind (moves_cancelled (.inl hrun) _),
      h.break_at hrun (.inr rfl) hlength (hfamily.break_ hactive (.inr rfl))⟩
    exact (PipelineStageResult.moves_node (moves_finish (.inr (.inr rfl)) (.inl hactive)) js).bind
      (PipelineStageResult.moves_cancelUnfinishedJobs .cancelled js)

/-- An active job of a running stage fails, and the stage and the run with it. -/
theorem moves_failJob (h : Coherent (.running, l)) (hi : l[i]? = some (.running, js))
    (hj : js[j]? = some b) (hjob : b.Active) :
    ∃ t, Edit.Moves shape (failJob now i stageName j jobName message) (.running, l) t
      ∧ Coherent t := by
  have hlength : i < l.length := (List.getElem?_eq_some_iff.mp hi).1
  have hjlength : j < js.length := (List.getElem?_eq_some_iff.mp hj).1
  refine ⟨_, (moves_stage hi ?_).bind (moves_failRun (.inl (.inr rfl)) _),
    h.break_at (.inr rfl) (.inl rfl) hlength
      ((h.family hi).break_at (.inr rfl) (.inl rfl) hjlength)⟩
  exact (PipelineStageResult.moves_job hj (moves_finish (.inr (.inl rfl)) (.inl hjob))).bind
    ((PipelineStageResult.moves_node (moves_finish (.inr (.inl rfl)) (.inl (.inr rfl))) _).bind
      (PipelineStageResult.moves_cancelUnfinishedJobs _ _))

/-- A job of an active stage begins, succeeds, or breaks its stage and the run. -/
theorem moves_applyJobCallback (h : Coherent (a, l)) (hrun : a.Active)
    (hi : l[i]? = some (s, js)) (hstage : s.Active) (hj : js[j]? = some b)
    (hallowed : assertTransitionAllowed b callback.status = .ok ()) :
    ∃ t, Edit.Moves shape (applyJobCallback now callback i stageName j jobName) (a, l) t
      ∧ Coherent t := by
  have hlength : i < l.length := (List.getElem?_eq_some_iff.mp hi).1
  have hjlength : j < js.length := (List.getElem?_eq_some_iff.mp hj).1
  have hfamily : Family s js := h.family hi
  have hstart : Edit.Moves shape (node (start now)) (a, l) (.running, l) :=
    moves_node (moves_start hrun) l
  have hstageStart : Edit.Moves PipelineStageResult.shape (PipelineStageResult.node (start now))
      (s, js) (.running, js) := PipelineStageResult.moves_node (moves_start hstage) js
  -- a job of an active stage has not been broken
  have hactive : ∀ {status : PipelineStatus}, status.Broken →
      assertTransitionAllowed b status = .ok () → b.Active := by
    intro status hstatus hallowed
    rcases finishes hallowed with hactive | rfl
    · exact hactive
    · have hfits := fits_running_of_active hstage (hfamily.fits _ (List.mem_of_getElem? hj))
      rcases hstatus with rfl | rfl <;> cases hfits
  unfold applyJobCallback
  cases hstatus : callback.status with
  | queued =>
    rw [hstatus] at hallowed
    obtain rfl : b = .queued := (allowed_cases hallowed).resolve_right fun hactive => hactive.2 rfl
    refine ⟨_, moves_stage hi (PipelineStageResult.moves_job hj (moves_transition_self _)), ?_⟩
    obtain ⟨_, hsame⟩ := List.getElem?_eq_some_iff.mp hj
    rw [← hsame, List.set_getElem_self, set_same hi]
    exact h
  | running =>
    rw [hstatus] at hallowed
    have hjob : b.Active := (finishes hallowed).elim (fun hactive => hactive) .inr
    refine ⟨_, hstart.bind (moves_stage hi (hstageStart.bind
      (PipelineStageResult.moves_job hj (moves_start hjob)))), ?_⟩
    exact (h.begin hrun).set_active hlength ((hfamily.begin hstage).set_active hjlength (.inr rfl))
      (.inr rfl)
  | succeeded =>
    rw [hstatus] at hallowed
    have hset : (l.set i (.running, js.set j .succeeded))[i]?
      = some (.running, js.set j .succeeded) :=
      getElem?_set_same hi
    refine ⟨_, hstart.bind ((moves_stage hi (hstageStart.bind (PipelineStageResult.moves_job hj
      (moves_finish (.inl rfl) (finishes hallowed))))).bind (moves_aggregateSuccess
      (.inl (.inr rfl))
        (moves_aggregateStage hset (.inl (.inr rfl)) .running))), ?_⟩
    have hjobs : ∀ child ∈ js.set j .succeeded, running.fits child = true := by
      intro child hchild
      rcases List.mem_or_eq_of_mem_set hchild with hold | rfl
      · exact fits_running_of_active hstage (hfamily.fits child hold)
      · rfl
    rw [List.set_set]
    refine (h.begin hrun).count (Family.count hjobs) ?_
    unfold counted
    split <;> rfl
  | failed =>
    rw [hstatus] at hallowed
    have hjob : b.Active := hactive (.inl rfl) hallowed
    have hbegun : Coherent (.running, l.set i (.running, js)) :=
      (h.begin hrun).set_active hlength (hfamily.begin hstage) (.inr rfl)
    obtain ⟨t, hmoves, hcoherent⟩ := moves_failJob hbegun (getElem?_set_same hi) hj hjob
    exact ⟨t, hstart.bind ((moves_stage hi hstageStart).bind hmoves), hcoherent⟩
  | cancelled =>
    rw [hstatus] at hallowed
    have hjob : b.Active := hactive (.inr rfl) hallowed
    have hbroken : Family .cancelled ((js.set j .cancelled).map cancelled?) :=
      hfamily.break_at hstage (.inr rfl) hjlength
    exact ⟨_, (moves_stage hi
      ((PipelineStageResult.moves_job hj (moves_finish (.inr (.inr rfl)) (.inl hjob))).bind
        ((PipelineStageResult.moves_node (moves_finish (.inr (.inr rfl)) (.inl hstage)) _).bind
          (PipelineStageResult.moves_cancelUnfinishedJobs _ _)))).bind
            (moves_cancelled (.inl hrun) _), h.break_at hrun (.inr rfl) hlength hbroken⟩

/-! ## Validated callbacks -/

/-- A coherent tree passes the assertions. -/
theorem assertRunInvariants_coherent {run : PipelineRun} (h : Coherent run.shape) :
    run.assertRunInvariants = .ok () := by
  have hstatus : ∀ stage ∈ run.stages, stage.status ∈ run.shape.2.map Prod.fst := by
    intro stage hstage
    exact List.mem_map.mpr ⟨stage.shape, List.mem_map_of_mem hstage, rfl⟩
  refine bind_eq_ok.mpr ⟨(), forM_eq_ok.mpr ?_, then_eq_ok.mpr ⟨refuse_eq_ok.mpr ?_,
    refuse_eq_ok.mpr ?_⟩⟩
  · intro stage hstage
    have hfamily : Family stage.shape.1 stage.shape.2 := h.jobs _ (List.mem_map_of_mem hstage)
    refine then_eq_ok.mpr ⟨refuse_eq_ok.mpr ?_, refuse_eq_ok.mpr ?_⟩
    · rintro ⟨hsucceeded, hunfinished⟩
      exact hunfinished (stage.jobsSucceeded_iff.mpr (hfamily.succeeded_iff.mp hsucceeded))
    · rintro ⟨hterminal, hactive⟩
      obtain ⟨job, hjob, hnot⟩ := List.any_eq_true.mp hactive
      exact of_decide_eq_true hnot (hfamily.terminal hterminal _ (List.mem_map_of_mem hjob))
  · rintro ⟨hsucceeded, hunfinished⟩
    refine hunfinished (List.all_eq_true.mpr fun stage hstage => decide_eq_true ?_)
    exact h.stages.succeeded_iff.mp hsucceeded _ (hstatus stage hstage)
  · rintro ⟨hterminal, hactive⟩
    obtain ⟨stage, hstage, hnot⟩ := List.any_eq_true.mp hactive
    exact of_decide_eq_true hnot (h.stages.terminal hterminal _ (hstatus stage hstage))

theorem named_getElem? {α : Type} {nameOf : α → String} {name : Option String} {entries : List α}
    {found : Nat × α} (h : named nameOf name entries = some found) :
    entries[found.1]? = some found.2 := by
  unfold named at h
  simp only [Option.bind_eq_bind, Option.bind_eq_some_iff, Option.pure_def, Option.some.injEq] at h
  obtain ⟨_, -, index, -, entry, hentry, rfl⟩ := h
  exact hentry

variable {run : PipelineRun} {target : Target}

/-- The node that a callback is about is in the tree. -/
theorem callbackTarget_cases (h : run.callbackTarget callback = .ok target) :
    callback.target = .pipeline ∧ target = .pipeline
      ∨ ∃ stage, run.stageForCallback callback = some stage ∧ run.stages[stage.1]? = some stage.2
        ∧ (callback.target = .stage ∧ target = .stage stage.1 stage.2.name
          ∨ callback.target = .job ∧ ∃ job : Nat × PipelineJobResult,
            stage.2.jobs[job.1]? = some job.2
              ∧ target = .job stage.1 stage.2.name job.1 job.2.name) := by
  unfold callbackTarget at h
  split at h
  · next hpipeline => exact .inl ⟨hpipeline, (pure_eq_ok.mp h).symm⟩
  · next hpipeline =>
    obtain ⟨stage, hstage, hrest⟩ := bind_eq_ok.mp h
    have hfound := demand_eq_ok.mp hstage
    refine .inr ⟨stage, hfound, named_getElem? hfound, ?_⟩
    split at hrest
    · next htarget => exact .inl ⟨htarget, (pure_eq_ok.mp hrest).symm⟩
    · next htarget =>
      obtain ⟨job, hjob, hlast⟩ := bind_eq_ok.mp hrest
      have hkind : callback.target = .job := by
        revert hpipeline htarget
        cases callback.target <;> simp
      exact .inr ⟨hkind, job, named_getElem? (demand_eq_ok.mp hjob), (pure_eq_ok.mp hlast).symm⟩

/-- What a validated callback has passed. -/
theorem validateCallback_ok (h : run.validateCallback callback target = .ok ()) :
    (callback.target ≠ .pipeline → run.status.Active)
      ∧ validateStage callback ((run.stageForCallback callback).map Prod.snd) = .ok ()
      ∧ (∃ status, run.statusOf target = some status
        ∧ assertTransitionAllowed status callback.status = .ok ())
      ∧ (callback.status = .succeeded → run.validateSuccess
        ((run.stageForCallback callback).map Prod.snd) callback.target = .ok ()) := by
  unfold validateCallback at h
  obtain ⟨hrun, hrest⟩ := refuse_bind_eq_ok.mp h
  obtain ⟨_, hstage, hrest⟩ := bind_eq_ok.mp hrest
  obtain ⟨status, hstatus, hrest⟩ := bind_eq_ok.mp hrest
  obtain ⟨_, hallowed, hlast⟩ := bind_eq_ok.mp hrest
  refine ⟨fun hpipeline => ?_, hstage, ⟨status, demand_eq_ok.mp hstatus, hallowed⟩, fun hs => ?_⟩
  · exact not_terminal_iff.mp fun hterminal => hrun ⟨hpipeline, hterminal⟩
  · rwa [if_pos hs] at hlast

/-- A validated callback is applied to a coherent tree as a whole. -/
theorem moves_applyCallback (h : Coherent run.shape)
    (htarget : run.callbackTarget callback = .ok target)
    (hvalid : run.validateCallback callback target = .ok ()) :
    ∃ t, Edit.Moves shape (applyCallback now callback target) run.shape t ∧ Coherent t := by
  obtain ⟨hactive, hstage, ⟨status, hstatus, hallowed⟩, hsucceeded⟩ := validateCallback_ok hvalid
  rcases callbackTarget_cases htarget with ⟨hkind, rfl⟩ | ⟨⟨i, stage⟩, hfound, hi, hrest⟩
  · obtain rfl : run.status = status := Option.some.inj hstatus
    refine moves_applyPipelineCallback h hallowed fun hs s hmem => ?_
    have hall := hsucceeded hs
    rw [hkind] at hall
    obtain ⟨stage, hstage, rfl⟩ := List.mem_map.mp hmem
    have hdone := List.all_eq_true.mp (not_not.mp (refuse_eq_ok.mp hall)) stage hstage
    exact (of_decide_eq_true hdone).1
  · have hshape : run.shape.2[i]? = some stage.shape := by
      unfold PipelineRun.shape
      rw [List.getElem?_map, hi]
      rfl
    rcases hrest with ⟨hkind, rfl⟩ | ⟨hkind, ⟨j, job⟩, hj, rfl⟩
    · have hrun : run.status.Active := hactive (by rw [hkind]; decide)
      obtain rfl : stage.status = status := by
        simpa only [statusOf, hi, Option.map_some, Option.some.injEq] using hstatus
      refine moves_applyStageCallback h hrun hshape hallowed fun hs => ?_
      have hjobs := hsucceeded hs
      rw [hkind, hfound] at hjobs
      exact stage.jobsSucceeded_iff.mp (not_not.mp (refuse_eq_ok.mp hjobs))
    · have hrun : run.status.Active := hactive (by rw [hkind]; decide)
      obtain rfl : job.status = status := by
        simpa [statusOf, hi, hj] using hstatus
      rw [hfound] at hstage
      have hstageActive : stage.status.Active :=
        not_terminal_iff.mp fun hterminal => refuse_eq_ok.mp hstage ⟨hkind, hterminal⟩
      refine moves_applyJobCallback h hrun hshape hstageActive ?_ hallowed
      rw [List.getElem?_map, hj]
      rfl

/-- A callback changes the tree as a whole and leaves it coherent, or it raises and changes
nothing. -/
theorem reconcile_atomic (h : Coherent run.shape) :
    (∃ e, reconcile now callback run = (run, .error e))
      ∨ ∃ run', reconcile now callback run = (run', .ok ()) ∧ Coherent run'.shape := by
  unfold reconcile
  rw [Edit.read_bind]
  cases htarget : run.callbackTarget callback with
  | error e => exact .inl ⟨e, rfl⟩
  | ok target =>
    rw [Edit.lift_ok_bind]
    cases hvalid : run.validateCallback callback target with
    | error e => exact .inl ⟨e, rfl⟩
    | ok valid =>
      obtain ⟨t, hmoves, hcoherent⟩ := moves_applyCallback h htarget hvalid
      obtain ⟨run', happlied, rfl⟩ := hmoves.bind_apply rfl
      refine .inr ⟨run', ?_, hcoherent⟩
      rw [Edit.lift_ok_bind, happlied, Edit.read_bind, assertRunInvariants_coherent hcoherent]
      rfl

end PipelineRun

end QaPlatform.Pipeline
