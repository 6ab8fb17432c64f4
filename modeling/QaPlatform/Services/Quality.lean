import Mathlib.Data.Finset.Image
import Mathlib.Data.Finset.Card
import QaPlatform.Base.Calendar
import QaPlatform.Base.Counters
import QaPlatform.Base.Loops
import QaPlatform.Services.Defects

/-!
# Quality reports

`app/services/quality.py`. The summary compares instants with the bounds of the period,
the trends compare local dates; the coverage climbs from every suite to its ancestors. A
date is the number of its day, a set of identifiers a `Finset`, a counter the list of what
it has been incremented at.
-/

namespace QaPlatform.Services

/-- The values of `CaseResultStatus`. -/
def CaseResultStatus.value : CaseResultStatus → String
  | .notRun => "not_run"
  | .passed => "passed"
  | .failed => "failed"
  | .blocked => "blocked"
  | .skipped => "skipped"

namespace QualityService

/-- What `report` raises. -/
inductive ReportError where
  | domain (error : DomainError)
  /-- `OverflowError`: a date or an instant that `datetime` has none for. -/
  | overflow
  /-- `AssertionError`. -/
  | assertion
  /-- A loop is still going. -/
  | running
deriving DecidableEq, Repr

/-! ## Dates and instants -/

/-- `TrendGranularity`. -/
inductive TrendGranularity where
  | day
  | week
deriving DecidableEq, Repr

/-- The microseconds of a day. -/
abbrev dayLength : Int := 86400000000

/-- The day of the epoch. -/
abbrev epochDay : Int := 719162

/-- A `date`: the last one is 31 December 9999. -/
def IsDate (day : Int) : Prop := 0 ≤ day ∧ day < 3652059

instance (day : Int) : Decidable (IsDate day) := inferInstanceAs (Decidable (_ ∧ _))

/-- Midnight, as the clock of the place reads. -/
def midnight (day : Int) : Int := (day - epochDay) * dayLength

/-- The day of a clock reading. -/
def dayOf (reading : Int) : Int := reading / dayLength + epochDay

/-- There is a `datetime` of the reading. -/
def IsReading (reading : Int) : Prop := IsDate (dayOf reading)

instance (reading : Int) : Decidable (IsReading reading) := inferInstanceAs (Decidable (IsDate _))

/-- `astimezone` from one fixed offset to another, as the change of the reading. -/
def shifted (reading change : Int) : Except ReportError Int :=
  if IsReading (reading + change) then .ok (reading + change) else .error .overflow

/-- `_SUPPORTED_TIMEZONES`, with the offsets from UTC. -/
def supportedTimezones : List (String × Int) := [("UTC", 0), ("Asia/Shanghai", seconds (8 * 3600))]

/-- `_timezone_for`. -/
def timezoneFor (name : String) : Except ReportError Int :=
  demand (.domain (.businessValidation "timezone 当前只支持 UTC 或 Asia/Shanghai"))
    (supportedTimezones.lookup name)

/-- `_MAX_PERIOD_DAYS`. -/
def maxPeriodDays : Int := 366

/-- `_period_bounds`. -/
def periodBounds (dateFrom dateTo offset : Int) : Except ReportError (Instant × Instant) := do
  refuse (dateTo < dateFrom) (.domain (.businessValidation "date_to 不能早于 date_from"))
  refuse (dateTo - dateFrom + 1 > maxPeriodDays)
    (.domain (.businessValidation "质量报表时间范围不能超过 366 天"))
  refuse (¬ IsDate (dateTo + 1)) .overflow
  let start ← shifted (midnight dateFrom) (-offset)
  let «end» ← shifted (midnight (dateTo + 1)) (-offset)
  return (start, «end»)

/-- `_within`. -/
def within (value : Option Instant) (startUtc endUtc : Instant) : Bool :=
  value.any fun instant => startUtc ≤ instant ∧ instant < endUtc

/-- The local date of an instant. -/
def localDate (instant : Instant) (offset : Int) : Except ReportError Int :=
  (shifted instant offset).map dayOf

/-- The first day of the bucket of a day. -/
def bucketOf (granularity : TrendGranularity) (day : Int) : Int :=
  match granularity with
  | .day => day
  | .week => day - Calendar.weekday day

/-- `_bucket_start`. -/
def bucketStart (instant : Instant) (offset : Int) (granularity : TrendGranularity) :
    Except ReportError Int :=
  (localDate instant offset).map (bucketOf granularity)

/-- The values of the cursor of `_period_bucket_starts`. -/
def periodDays (dateFrom dateTo : Int) : List Int :=
  (List.range (dateTo - dateFrom + 1).toNat).map fun (k : Nat) => dateFrom + k

/-- `_period_bucket_starts`. -/
def periodBucketStarts (dateFrom dateTo : Int) (granularity : TrendGranularity) : List Int :=
  Counters.firsts ((periodDays dateFrom dateTo).map (bucketOf granularity))

/-! ## What is counted -/

/-- `_rate`, but for its percentage. -/
structure CountAndRate where
  numerator : Nat
  denominator : Nat
deriving DecidableEq, Repr

/-- One bucket of the trend. -/
structure QualityTrendPoint where
  bucketStart : Int
  completedExecutions : Nat
  passed : Nat
  failed : Nat
  blocked : Nat
  skipped : Nat
  notRun : Nat
  passRate : CountAndRate
  defectsCreated : Nat
  defectsResolved : Nat
  defectsClosed : Nat
  defectsReopened : Nat
deriving DecidableEq, Repr

/-- The counts and the sets of `_execution_facts`. -/
structure ExecutionFacts where
  counts : List CaseResultStatus
  reached : Finset Uuid
  failurePairs : Finset (Uuid × Uuid)

/-- `_execution_facts`. -/
def executionFacts (executions : List TestExecution) : ExecutionFacts where
  counts := executions.flatMap fun execution => execution.results.map (·.status)
  reached := (executions.flatMap fun execution =>
    (execution.results.filter (·.status ≠ .notRun)).map (·.caseId)).toFinset
  failurePairs := (executions.flatMap fun execution =>
    (execution.results.filter fun result => result.status = .failed ∨ result.status = .blocked).map
      fun result => (execution.id, result.caseId)).toFinset

/-- `_is_reopen_event`. -/
def isReopenEvent (event : AuditEvent) : Bool :=
  event.entityType = "defect" ∧ event.action = .statusChanged
    ∧ (event.changes.lookup "status").any (·.after = .text DefectStatus.reopened.value)

/-! ## Trends -/

/-- The counter of a bucket and the key in it that are incremented. -/
abbrev Increment := Int × String

/-- What a completed execution adds to the counters. -/
def executionIncrements (offset : Int) (granularity : TrendGranularity)
    (execution : TestExecution) : Except ReportError (List Increment) := do
  let completedAt ← demand .assertion execution.completedAt
  let bucket ← bucketStart completedAt offset granularity
  return (bucket, "completed_executions")
    :: execution.results.map fun result => (bucket, result.status.value)

/-- What one timestamp of a defect adds, when it is in the period. -/
def timestampIncrements (dateFrom dateTo offset : Int) (granularity : TrendGranularity)
    (field : String) : Option Instant → Except ReportError (List Increment)
  | none => return []
  | some timestamp => do
    let date ← localDate timestamp offset
    if ¬ (dateFrom ≤ date ∧ date ≤ dateTo) then return []
    else
      let bucket ← bucketStart timestamp offset granularity
      return [(bucket, field)]

/-- The three timestamps of a defect, under the names of their counters. -/
def timestamps (defect : Defect) : List (String × Option Instant) :=
  [("defects_created", some defect.createdAt), ("defects_resolved", defect.resolvedAt),
    ("defects_closed", defect.closedAt)]

/-- What a defect adds to the counters. -/
def defectIncrements (dateFrom dateTo offset : Int) (granularity : TrendGranularity)
    (defect : Defect) : Except ReportError (List Increment) :=
  Counters.gather (fun entry : String × Option Instant =>
    timestampIncrements dateFrom dateTo offset granularity entry.1 entry.2) (timestamps defect)

/-- What a reopening adds to the counters. -/
def reopenIncrements (offset : Int) (granularity : TrendGranularity) (event : AuditEvent) :
    Except ReportError (List Increment) := do
  let bucket ← bucketStart event.createdAt offset granularity
  return [(bucket, "defects_reopened")]

/-- The trend point of a bucket. -/
def trendPoint (counters : List Increment) (bucket : Int) : QualityTrendPoint :=
  let values := fun key => counters.count (bucket, key)
  let passed := values CaseResultStatus.passed.value
  let failed := values CaseResultStatus.failed.value
  { bucketStart := bucket
    completedExecutions := values "completed_executions"
    passed := passed
    failed := failed
    blocked := values CaseResultStatus.blocked.value
    skipped := values CaseResultStatus.skipped.value
    notRun := values CaseResultStatus.notRun.value
    passRate := ⟨passed, passed + failed⟩
    defectsCreated := values "defects_created"
    defectsResolved := values "defects_resolved"
    defectsClosed := values "defects_closed"
    defectsReopened := values "defects_reopened" }

/-- `_build_trends`. -/
def buildTrends (dateFrom dateTo : Int) (granularity : TrendGranularity) (offset : Int)
    (executions : List TestExecution) (defects : List Defect) (reopenEvents : List AuditEvent) :
    Except ReportError (List QualityTrendPoint) := do
  let ofExecutions ← Counters.gather (executionIncrements offset granularity) executions
  let ofDefects ← Counters.gather (defectIncrements dateFrom dateTo offset granularity) defects
  let ofEvents ← Counters.gather (reopenIncrements offset granularity) reopenEvents
  return (periodBucketStarts dateFrom dateTo granularity).map
    (trendPoint (ofExecutions ++ ofDefects ++ ofEvents))

/-! ## Coverage -/

/-- The coverage of one suite, or of the cases without one. -/
structure SuiteCoverage where
  suiteId : Option Uuid
  suitePath : String
  suiteStatus : Option TestSuiteStatus
  activeCases : Nat
  automatedCases : Nat
  automationCoverage : CountAndRate
  executedCases : Nat
  executionReach : CountAndRate
  failedOrBlockedResults : Nat
  linkedFailedOrBlockedResults : Nat
  failureDefectCoverage : CountAndRate

/-- `by_id`. A later suite takes the place of an earlier one. -/
def byId (suites : List TestSuite) (id : Uuid) : Option TestSuite :=
  suites.reverse.find? (·.id = id)

/-- `descendant_ids`. -/
abbrev DescendantIds := Uuid → Option (Finset Uuid)

/-- `descendant_ids.setdefault(id, {id}).add(descendant)`. -/
def DescendantIds.attribute (descendantIds : DescendantIds) (id descendant : Uuid) :
    DescendantIds :=
  fun key =>
    if key = id then some (insert descendant ((descendantIds id).getD {id})) else descendantIds key

/-- The walk from a candidate to its ancestors. -/
structure Climb where
  current : TestSuite
  visited : Finset Uuid
  descendantIds : DescendantIds

/-- One turn of the climb from a candidate: its identifier goes to the parent. -/
def climb (suites : List TestSuite) (candidate : TestSuite) (c : Climb) : Climb ⊕ DescendantIds :=
  match c.current.parentId with
  | none => .inr c.descendantIds
  | some parentId =>
    if parentId ∈ c.visited then .inr c.descendantIds
    else
      match byId suites parentId with
      | none => .inr (c.descendantIds.attribute parentId candidate.id)
      | some parent =>
        .inl ⟨parent, insert parentId c.visited, c.descendantIds.attribute parentId candidate.id⟩

/-- The entries that `descendant_ids` begins with. -/
def ownIds (suites : List TestSuite) : DescendantIds :=
  fun id => if id ∈ suites.map (·.id) then some {id} else none

/-- `descendant_ids` after the walks of some candidates. -/
def climbAll (suites : List TestSuite) (fuel : Nat) :
    List TestSuite → DescendantIds → Option DescendantIds
  | [], descendantIds => some descendantIds
  | candidate :: candidates, descendantIds => do
    let descendantIds ← Loop.eval (climb suites candidate) fuel ⟨candidate, ∅, descendantIds⟩
    climbAll suites fuel candidates descendantIds

/-- `descendant_ids`: for each suite those under it, itself included. -/
def descendantIds (suites : List TestSuite) (fuel : Nat) : Option DescendantIds :=
  climbAll suites fuel suites (ownIds suites)

/-- The suites that are attributed to one. -/
def scopedSuiteIds (descendantIds : DescendantIds) (id : Uuid) : Finset Uuid :=
  (descendantIds id).getD {id}

/-- `scoped_cases`. -/
def scopedCases (descendantIds : DescendantIds) (cases : List TestCase) (suite : TestSuite) :
    List TestCase :=
  cases.filter fun testCase => testCase.suiteId.any (· ∈ scopedSuiteIds descendantIds suite.id)

/-- The cases that are in no suite. -/
def unassignedCases (cases : List TestCase) : List TestCase :=
  cases.filter (·.suiteId = none)

/-- A walk of `_suite_paths`; the last name comes first. -/
structure PathWalk where
  current : TestSuite
  visited : Finset Uuid
  names : List String

/-- One turn of the loop over the parents. -/
def pathStep (suites : List TestSuite) (w : PathWalk) : PathWalk ⊕ List String :=
  if w.current.id ∈ w.visited then .inr ("[循环]" :: w.names)
  else
    match w.current.parentId with
    | none => .inr (w.current.name :: w.names)
    | some parentId =>
      match byId suites parentId with
      | none => .inr ("[缺失父节点]" :: w.current.name :: w.names)
      | some parent => .inl ⟨parent, insert w.current.id w.visited, w.current.name :: w.names⟩

/-- `_suite_paths`: a later entry takes the place of an earlier one. -/
def suitePaths (suites : List TestSuite) (fuel : Nat) : Option (List (Uuid × String)) :=
  suites.mapM fun suite => do
    let names ← Loop.eval (pathStep suites) fuel ⟨suite, ∅, []⟩
    return (suite.id, String.intercalate "/" names)

/-- `paths.get(suite.id, suite.name)`. -/
def pathFor (paths : List (Uuid × String)) (suite : TestSuite) : String :=
  (paths.reverse.lookup suite.id).getD suite.name

/-- `_coverage_row`. -/
def coverageRow (suiteId : Option Uuid) (suitePath : String) (suiteStatus : Option TestSuiteStatus)
    (cases : List TestCase) (reachedCaseIds : Finset Uuid)
    (failurePairs linkedFailurePairs : Finset (Uuid × Uuid)) : SuiteCoverage :=
  let caseIds := (cases.map (·.id)).toFinset
  let automated := cases.countP (·.caseType = .automated)
  let reached := caseIds ∩ reachedCaseIds
  let failures := failurePairs.filter (·.2 ∈ caseIds)
  let linked := failures ∩ linkedFailurePairs
  { suiteId := suiteId
    suitePath := suitePath
    suiteStatus := suiteStatus
    activeCases := cases.length
    automatedCases := automated
    automationCoverage := ⟨automated, cases.length⟩
    executedCases := reached.card
    executionReach := ⟨reached.card, cases.length⟩
    failedOrBlockedResults := failures.card
    linkedFailedOrBlockedResults := linked.card
    failureDefectCoverage := ⟨linked.card, failures.card⟩ }

/-- The key of a row, `(suite_id is None, suite_path)`. -/
def rowLe (a b : SuiteCoverage) : Bool :=
  if a.suiteId.isNone = b.suiteId.isNone then decide (¬ b.suitePath < a.suitePath)
  else b.suiteId.isNone

/-- `_build_suite_coverage`, with fuel for each of its walks. -/
def buildSuiteCoverage (cases : List TestCase) (suites : List TestSuite)
    (reachedCaseIds : Finset Uuid) (failurePairs linkedFailurePairs : Finset (Uuid × Uuid))
    (fuel : Nat) : Option (List SuiteCoverage) := do
  let paths ← suitePaths suites fuel
  let descendantIds ← descendantIds suites fuel
  let rows := suites.map fun suite =>
    coverageRow (some suite.id) (pathFor paths suite) (some suite.status)
      (scopedCases descendantIds cases suite) reachedCaseIds failurePairs linkedFailurePairs
  let unassigned := unassignedCases cases
  let unassignedRows := if unassigned = [] then [] else
    [coverageRow none "（未归类）" none unassigned reachedCaseIds failurePairs linkedFailurePairs]
  return (rows ++ unassignedRows).mergeSort rowLe

/-! ## Reports -/

/-- The period of a report. -/
structure QualityPeriod where
  dateFrom : Int
  dateTo : Int
  timezone : String

/-- The part of a report about test cases. -/
structure TestCaseQualitySummary where
  totalCurrent : Nat
  activeCurrent : Nat
  automatedActiveCurrent : Nat
  automationCoverage : CountAndRate
  executionReach : CountAndRate

/-- The part of a report about executions. -/
structure ExecutionQualitySummary where
  completedExecutions : Nat
  totalResults : Nat
  executedResults : Nat
  passed : Nat
  failed : Nat
  blocked : Nat
  skipped : Nat
  notRun : Nat
  completionRate : CountAndRate
  passRate : CountAndRate
  failureDefectCoverage : CountAndRate

/-- The part of a report about defects. -/
structure DefectQualitySummary where
  createdInPeriod : Nat
  resolvedInPeriod : Nat
  closedInPeriod : Nat
  reopenedInPeriod : Nat
  notClosedCurrent : Nat
  unresolvedCurrent : Nat
  highSeverityNotClosedCurrent : Nat

/-- The three summaries. -/
structure QualitySummary where
  projectId : Uuid
  period : QualityPeriod
  testCases : TestCaseQualitySummary
  executions : ExecutionQualitySummary
  defects : DefectQualitySummary
  generatedAt : Instant

/-- A quality report. -/
structure QualityReport where
  summary : QualitySummary
  granularity : TrendGranularity
  trends : List QualityTrendPoint
  coverageBySuite : List SuiteCoverage

/-- `selected_executions`. -/
def selectedExecutions (s : QaStore) (projectId : Uuid) (bounds : Instant × Instant) :
    List TestExecution :=
  s.executions.rows.filter fun execution =>
    execution.projectId = projectId ∧ execution.status = .completed
      ∧ within execution.completedAt bounds.1 bounds.2

/-- The defects of the project. -/
def projectDefects (s : QaStore) (projectId : Uuid) : List Defect :=
  s.defects.rows.filter (·.projectId = projectId)

/-- `reopened_audits`. -/
def reopenedAudits (s : QaStore) (projectId : Uuid) (bounds : Instant × Instant) :
    List AuditEvent :=
  s.auditEvents.filter fun event =>
    event.projectId = some projectId ∧ isReopenEvent event
      ∧ within (some event.createdAt) bounds.1 bounds.2

/-- The failed results that one of the defects names. -/
def linkedFailurePairs (defects : List Defect) (failurePairs : Finset (Uuid × Uuid)) :
    Finset (Uuid × Uuid) :=
  failurePairs.filter fun pair =>
    defects.any fun defect => defect.executionId = some pair.1 ∧ defect.caseId = some pair.2

/-- The summary of the completed executions. -/
def executionSummary (executions : List TestExecution) (facts : ExecutionFacts)
    (linked : Finset (Uuid × Uuid)) : ExecutionQualitySummary :=
  let totalResults := facts.counts.length
  let notRun := facts.counts.count .notRun
  let passed := facts.counts.count .passed
  let failed := facts.counts.count .failed
  { completedExecutions := executions.length
    totalResults := totalResults
    executedResults := totalResults - notRun
    passed := passed
    failed := failed
    blocked := facts.counts.count .blocked
    skipped := facts.counts.count .skipped
    notRun := notRun
    completionRate := ⟨totalResults - notRun, totalResults⟩
    passRate := ⟨passed, passed + failed⟩
    failureDefectCoverage := ⟨linked.card, facts.failurePairs.card⟩ }

/-- The summary of the defects. -/
def defectSummary (defects : List Defect) (reopened : List AuditEvent)
    (bounds : Instant × Instant) : DefectQualitySummary :=
  let notClosed := defects.filter (·.status ≠ .closed)
  { createdInPeriod := defects.countP fun defect => within (some defect.createdAt) bounds.1 bounds.2
    resolvedInPeriod := defects.countP fun defect => within defect.resolvedAt bounds.1 bounds.2
    closedInPeriod := defects.countP fun defect => within defect.closedAt bounds.1 bounds.2
    reopenedInPeriod := reopened.length
    notClosedCurrent := notClosed.length
    unresolvedCurrent := defects.countP (·.status ∈ [.opened, .inProgress, .reopened])
    highSeverityNotClosedCurrent := notClosed.countP (·.severity ∈ [.blocker, .critical]) }

/-- The summary of the test cases. -/
def testCaseSummary (cases activeCases : List TestCase) (reachedCaseIds : Finset Uuid) :
    TestCaseQualitySummary :=
  let automated := activeCases.countP (·.caseType = .automated)
  { totalCurrent := cases.length
    activeCurrent := activeCases.length
    automatedActiveCurrent := automated
    automationCoverage := ⟨automated, activeCases.length⟩
    executionReach :=
      ⟨(reachedCaseIds ∩ (activeCases.map (·.id)).toFinset).card, activeCases.length⟩ }

/-- The test cases of the project. -/
def projectCases (s : QaStore) (projectId : Uuid) : List TestCase :=
  s.testCases.rows.filter (·.projectId = projectId)

/-- The active test cases of the project. -/
def activeCases (s : QaStore) (projectId : Uuid) : List TestCase :=
  (projectCases s projectId).filter (·.status = .active)

/-- The suites of the project. -/
def projectSuites (s : QaStore) (projectId : Uuid) : List TestSuite :=
  s.testSuites.rows.filter (·.projectId = projectId)

/-- The summary of a report. -/
def summaryOf (s : QaStore) (project : Uuid) (period : QualityPeriod) (bounds : Instant × Instant)
    (generatedAt : Instant) : QualitySummary :=
  let executions := selectedExecutions s project bounds
  let defects := projectDefects s project
  let facts := executionFacts executions
  { projectId := project
    period := period
    testCases := testCaseSummary (projectCases s project) (activeCases s project) facts.reached
    executions := executionSummary executions facts (linkedFailurePairs defects facts.failurePairs)
    defects := defectSummary defects (reopenedAudits s project bounds) bounds
    generatedAt := generatedAt }

/-- `report` in a timezone of any fixed offset. -/
def reportAt (s : QaStore) (project : Uuid) (dateFrom dateTo : Int)
    (granularity : TrendGranularity) (timezoneName : String) (offset : Int) (generatedAt : Instant)
    (fuel : Nat) : Except ReportError QualityReport := do
  let bounds ← periodBounds dateFrom dateTo offset
  let executions := selectedExecutions s project bounds
  let facts := executionFacts executions
  let trends ← buildTrends dateFrom dateTo granularity offset executions (projectDefects s project)
    (reopenedAudits s project bounds)
  let coverage ← demand .running
    (buildSuiteCoverage (activeCases s project) (projectSuites s project)
    facts.reached facts.failurePairs
    (linkedFailurePairs (projectDefects s project) facts.failurePairs) fuel)
  return ⟨summaryOf s project ⟨dateFrom, dateTo, timezoneName⟩ bounds generatedAt, granularity,
    trends, coverage⟩

/-- `report`. -/
def report (s : QaStore) (projectId : UuidText) (dateFrom dateTo : Int)
    (granularity : TrendGranularity) (timezoneName : String) (generatedAt : Instant) (fuel : Nat) :
    Except ReportError QualityReport := do
  let parsedProjectId ← (parseUuid projectId "project_id").mapError .domain
  let _ ← demand (.domain (.notFound "项目" parsedProjectId)) (s.projects.get? parsedProjectId)
  let offset ← timezoneFor timezoneName
  reportAt s parsedProjectId dateFrom dateTo granularity timezoneName offset generatedAt fuel

end QualityService

end QaPlatform.Services
