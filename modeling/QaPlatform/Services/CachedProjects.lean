import QaPlatform.Base.CacheAside
import QaPlatform.Services.Calls

/-!
# The project cache

`CachedProjectRepository` (`app/repositories/cached_projects.py`) and how `ProjectService` uses it:
projects are read through the cache, written in the database, and their keys are dropped after a
write. A moment is in milliseconds on the clock of the cache. A call takes the business lock, and
between its steps time passes.

The cache never raises: a lookup that fails counts as a miss, and a store or a drop that fails
is recorded and passed over. What the cache does in a call is in `ReadBehaviour` and in the
replies of the writes, and is the environment's choice.
-/

namespace QaPlatform.Services

/-- What `json.loads` makes of a text: a list, or something else. -/
inductive LoadedJson (δ : Type) where
  | list (values : List δ)
  | other

/-- What pydantic and `json` make of projects. What they write they read. -/
structure ProjectJson (δ : Type) where
  uuid : Uuid → String
  modelDumpJson : Project → String
  modelValidateJson : String → Option Project
  /-- `model_dump(mode="json")`. -/
  modelDump : Project → δ
  modelValidate : δ → Option Project
  dumps : List δ → String
  loads : String → Option (LoadedJson δ)
  uuid_injective : Function.Injective uuid
  validateJson_dumpJson : ∀ project, modelValidateJson (modelDumpJson project) = some project
  validate_dump : ∀ project, modelValidate (modelDump project) = some project
  loads_dumps : ∀ values, loads (dumps values) = some (.list values)

/-- What `JsonCache.get` has returned, and whether it has failed. -/
structure CacheLookup where
  value : Option String
  failed : Bool

/-- What `CacheMetrics` is told. -/
inductive CacheRecord where
  | lookup (outcome : String)
  | operation (operation : String) (succeeded : Bool)
deriving DecidableEq

/-- The database and the cache. -/
structure CachedProjects extends CacheAside QaStore String String where
  /-- The last record first. -/
  recorded : List CacheRecord

/-- How the cache behaves while a project or the list is read. -/
structure ReadBehaviour where
  getFails : Bool
  invalidation : CacheReply
  fill : CacheReply

/-! ## The repository -/

/-- `CachedProjectRepository`, with how long an entry lasts. -/
structure CachedProjectRepository (δ : Type) where
  json : ProjectJson δ
  ttlSeconds : Nat

namespace CachedProjectRepository

variable {δ : Type} (repository : CachedProjectRepository δ)

/-- `_LIST_KEY`. -/
def listKey : String := "qa:v1:projects:all"

/-- `_item_key`. -/
def itemKey (projectId : Uuid) : String :=
  "qa:v1:projects:item:" ++ repository.json.uuid projectId

/-- The time to live. -/
def ttl : Nat := repository.ttlSeconds * 1000

/-- `JsonCache.get`. -/
def lookup (fails : Bool) (key : String) (cached : CachedProjects) : CacheLookup :=
  if fails then ⟨none, true⟩ else ⟨cached.get? key, false⟩

/-- `_record_lookup`. -/
def recordLookup (lookup : CacheLookup) (cached : CachedProjects) : CachedProjects :=
  let outcome := if lookup.failed then "error" else if lookup.value.isSome then "hit" else "miss"
  { cached with recorded := .lookup outcome :: cached.recorded }

/-- `JsonCache.delete`, and its record. -/
def drop (reply : CacheReply) (keys : List String) (cached : CachedProjects) : CachedProjects where
  toCacheAside := cached.delete reply keys
  recorded := .operation "invalidate" reply.succeeded :: cached.recorded

/-- `JsonCache.set`, and its record. -/
def store (reply : CacheReply) (key value : String) (cached : CachedProjects) : CachedProjects where
  toCacheAside := cached.set reply repository.ttl key value
  recorded := .operation "fill" reply.succeeded :: cached.recorded

/-- `_store_item`. -/
def storeItem (reply : CacheReply) (project : Project) (cached : CachedProjects) :
    CachedProjects :=
  repository.store reply (repository.itemKey project.id) (repository.json.modelDumpJson project)
    cached

/-- `_invalidate`. -/
def invalidate (reply : CacheReply) (projectId : Uuid) (cached : CachedProjects) :
    CachedProjects :=
  drop reply [listKey, repository.itemKey projectId] cached

/-- The rest of `get`, when the cache does not know the project. -/
def getStored (behaviour : ReadBehaviour) (projectId : Uuid) (cached : CachedProjects) :
    CachedProjects × Option Project :=
  match cached.source.projects.get? projectId with
  | none => (cached, none)
  | some project => (repository.storeItem behaviour.fill project cached, some project)

/-- `get`: from the cache if it has an entry that can be read, else from the database. -/
def get (behaviour : ReadBehaviour) (projectId : Uuid) (cached : CachedProjects) :
    CachedProjects × Option Project :=
  let key := repository.itemKey projectId
  let lookup := lookup behaviour.getFails key cached
  let cached := recordLookup lookup cached
  match lookup.value with
  | none => repository.getStored behaviour projectId cached
  | some value =>
    match repository.json.modelValidateJson value with
    | some project => (cached, some project)
    | none => repository.getStored behaviour projectId (drop behaviour.invalidation [key] cached)

/-- The text of a list of projects. -/
def listText (projects : List Project) : String :=
  repository.json.dumps (projects.map repository.json.modelDump)

/-- The projects of a text. -/
def readList (value : String) : Option (List Project) := do
  match ← repository.json.loads value with
  | .other => none
  | .list values => values.mapM repository.json.modelValidate

/-- The rest of `list`, when the cache does not know the list. -/
def listStored (behaviour : ReadBehaviour) (cached : CachedProjects) :
    CachedProjects × List Project :=
  let projects := cached.source.projects.rows
  (repository.store behaviour.fill listKey (repository.listText projects) cached, projects)

/-- `list`, in the same way. -/
def list (behaviour : ReadBehaviour) (cached : CachedProjects) : CachedProjects × List Project :=
  let lookup := lookup behaviour.getFails listKey cached
  let cached := recordLookup lookup cached
  match lookup.value with
  | none => repository.listStored behaviour cached
  | some value =>
    match repository.readList value with
    | some projects => (cached, projects)
    | none => repository.listStored behaviour (drop behaviour.invalidation [listKey] cached)

/-- A write of the wrapped repository, and the keys that it has dropped when it does not raise. -/
def written (reply : CacheReply) {α : Type} (idOf : α → Uuid)
    (result : Except DomainError (QaStore × α)) (cached : CachedProjects) :
    CachedProjects × Except DomainError α :=
  match result with
  | .error e => (cached, .error e)
  | .ok (source, a) =>
    let cached := { cached with toCacheAside := cached.write source }
    (repository.invalidate reply (idOf a) cached, .ok a)

/-! ## Writes through the repository -/

/-- `_ensure_unique`, when `key` is among the unique fields. -/
def ensureUnique (s : QaStore) (uniqueKey : Bool) (project : Project) (excludeId : Option Uuid) :
    Except DomainError Unit :=
  if uniqueKey then ProjectService.ensureUnique s project excludeId else return

/-- `create` of the wrapped repository. -/
def createStored (s : QaStore) (uniqueKey : Bool) (project : Project) :
    Except DomainError (QaStore × Project) := do
  ensureUnique s uniqueKey project none
  let projects ← demand .integrity (s.projects.insert? project)
  return ({ s with projects }, project)

/-- `create` through the cache. -/
def create (reply : CacheReply) (uniqueKey : Bool) (project : Project) (cached : CachedProjects) :
    CachedProjects × Except DomainError Project :=
  repository.written reply Project.id (createStored cached.source uniqueKey project) cached

/-- `update` of the wrapped repository. -/
def updateStored (s : QaStore) (uniqueKey : Bool) (project : Project) :
    Except DomainError (QaStore × Project) := do
  let _ ← demand (.notFound "实体" project.id) (s.projects.get? project.id)
  ensureUnique s uniqueKey project (some project.id)
  return ({ s with projects := s.projects.put project }, project)

/-- `update` through the cache. -/
def update (reply : CacheReply) (uniqueKey : Bool) (project : Project) (cached : CachedProjects) :
    CachedProjects × Except DomainError Project :=
  repository.written reply Project.id (updateStored cached.source uniqueKey project) cached

/-- `delete` through the cache; it drops keys only when there was a project. -/
def delete (reply : CacheReply) (projectId : Uuid) (cached : CachedProjects) :
    CachedProjects × Bool :=
  if (cached.source.projects.get? projectId).isSome then
    let source := { cached.source with projects := cached.source.projects.erase projectId }
    let cached := { cached with toCacheAside := cached.write source }
    (repository.invalidate reply projectId cached, true)
  else (cached, false)

/-- Every project, one after the other. -/
def cleared (s : QaStore) : QaStore :=
  let erase := fun (projects : Table Project) (project : Project) => projects.erase project.id
  { s with projects := s.projects.rows.foldl erase s.projects }

/-- `clear`, which drops the key of every project. -/
def clear (reply : CacheReply) (cached : CachedProjects) : CachedProjects :=
  let projects := cached.source.projects.rows
  drop reply (listKey :: projects.map fun project => repository.itemKey project.id)
    { cached with toCacheAside := cached.write (cleared cached.source) }

end CachedProjectRepository

/-! ## The service -/

namespace ProjectService

/-- `get` on the database alone. -/
def getStored (s : QaStore) (projectId : Uuid) : Except DomainError Project :=
  getUnlocked s projectId

/-- What `_list_unlocked` makes of the projects. -/
def listed (status : Option ProjectStatus) (projects : List Project) : List Project :=
  (projects.filter fun project => status.all (project.status = ·)).insertionSort
    fun project project' => project.createdAt ≤ project'.createdAt

/-- `list` on the database alone. -/
def listStored (s : QaStore) (status : Option ProjectStatus) : List Project :=
  listed status s.projects.rows

section
variable {δ : Type} (queries : CachedProjectRepository δ)

/-- `get` of the service. -/
def get (behaviour : ReadBehaviour) (projectId : Uuid) (cached : CachedProjects) :
    CachedProjects × Except DomainError Project :=
  let (cached, project) := queries.get behaviour projectId cached
  (cached, demand (.notFound "项目" projectId) project)

/-- `list` of the service, which filters and sorts what the repository gives. -/
def list (behaviour : ReadBehaviour) (status : Option ProjectStatus) (cached : CachedProjects) :
    CachedProjects × List Project :=
  let (cached, items) := queries.list behaviour cached
  (cached, listed status items)

/-- `create` of the service. -/
def createCached (c : Context) (reply : CacheReply) (payload : ProjectCreate)
    (cached : CachedProjects) : CachedProjects × Except DomainError Project :=
  queries.written reply Project.id (create c cached.source payload) cached

/-- `update` of the service. -/
def updateCached (c : Context) (reply : CacheReply) (projectId : Uuid) (payload : ProjectUpdate)
    (cached : CachedProjects) : CachedProjects × Except DomainError Project :=
  queries.written reply Project.id (update c cached.source projectId payload) cached

/-- A project that has the status already is not written. -/
def transitionCached (c : Context) (reply : CacheReply) (projectId : Uuid) (target : ProjectStatus)
    (cached : CachedProjects) : CachedProjects × Except DomainError Project :=
  match getUnlocked cached.source projectId with
  | .error e => (cached, .error e)
  | .ok project =>
    if project.status = target then (cached, .ok project)
    else queries.written reply Project.id (transition c cached.source projectId target) cached

/-- `delete` of the service. -/
def deleteCached (reply : CacheReply) (projectId : Uuid) (cached : CachedProjects) :
    CachedProjects × Except DomainError Uuid :=
  queries.written reply id (delete cached.source projectId) cached

end

end ProjectService

/-! ## Runs -/

/-- A write through the cached repository itself. -/
inductive RepositoryWrite where
  | create (uniqueKey : Bool) (project : Project)
  | update (uniqueKey : Bool) (project : Project)
  | delete (projectId : Uuid)
  | clear

/-- Time passes, something is read, or something is written. -/
inductive CacheEvent where
  | pass (duration : Nat)
  | get (behaviour : ReadBehaviour) (projectId : Uuid)
  | list (behaviour : ReadBehaviour) (status : Option ProjectStatus)
  /-- Any call of the services; those that write a project have it dropped. -/
  | call (event : QaEvent) (invalidation : CacheReply)
  | repositoryWrite (write : RepositoryWrite) (invalidation : CacheReply)

namespace CachedProjects

/-- An empty cache before a source. -/
def start (now : Nat) (source : QaStore) : CachedProjects := ⟨.empty now source, []⟩

section
variable {δ : Type} (queries : CachedProjectRepository δ)

/-- A call of the services. -/
def perform (c : Context) (reply : CacheReply) (cached : CachedProjects) : QaCall → CachedProjects
  | .createProject payload => (ProjectService.createCached queries c reply payload cached).1
  | .updateProject projectId payload =>
    (ProjectService.updateCached queries c reply projectId payload cached).1
  | .transitionProject projectId target =>
    (ProjectService.transitionCached queries c reply projectId target cached).1
  | .deleteProject projectId => (ProjectService.deleteCached queries reply projectId cached).1
  | call => { cached with toCacheAside := cached.write (cached.source.perform c call) }

/-- A write of the repository. -/
def writeThrough (reply : CacheReply) (cached : CachedProjects) :
    RepositoryWrite → CachedProjects
  | .create uniqueKey project => (queries.create reply uniqueKey project cached).1
  | .update uniqueKey project => (queries.update reply uniqueKey project cached).1
  | .delete projectId => (queries.delete reply projectId cached).1
  | .clear => queries.clear reply cached

/-- One event. -/
def step (casing : Casing) (texts : Texts) (cached : CachedProjects) :
    CacheEvent → CachedProjects
  | .pass duration => { cached with toCacheAside := cached.wait duration }
  | .get behaviour projectId => (ProjectService.get queries behaviour projectId cached).1
  | .list behaviour status => (ProjectService.list queries behaviour status cached).1
  | .call event reply =>
    cached.perform queries ⟨casing, texts, event.currentActor, event.now⟩ reply event.call
  | .repositoryWrite write reply => cached.writeThrough queries reply write

end

end CachedProjects

end QaPlatform.Services
