import Mathlib.Init

/-! Vocabulary shared by the services: identifiers, clock readings, digests and
the domain errors of `app/core/errors.py`. -/

namespace QaPlatform

/-- A `uuid4()`. Identifiers are compared and ordered and nothing else is done
with their text; a table hands out each number once. -/
abbrev Uuid := Nat

/-- A UTC clock reading in microseconds since the epoch. -/
abbrev Instant := Int

/-- `timedelta(seconds=n)`. -/
def seconds (n : Int) : Int := n * 1000000

theorem le_add_seconds (now : Int) {n : Int} (h : 0 ≤ n) : now ≤ now + seconds n := by
  unfold seconds
  omega

/-- `timedelta(milliseconds=n)`. -/
def milliseconds (n : Int) : Int := n * 1000

/-- A SHA-256 digest. Digests are compared and never inverted: a digest is kept
as its preimage, which takes the hash to be injective. -/
structure Digest (α : Type) where
  preimage : α
deriving DecidableEq, Repr

/-- The SHA-256 of a lease token. -/
abbrev TokenHash := Digest String

/-- `_token_hash`. -/
def tokenHash (value : String) : TokenHash := ⟨value⟩

@[simp] theorem tokenHash_inj {a b : String} : tokenHash a = tokenHash b ↔ a = b := by
  simp [tokenHash]

/-- A JSON document as its canonical text: sorted keys, no blanks. -/
abbrev Json := String

/-- `str.isspace` on one character. -/
def isSpace (c : Char) : Bool :=
  let n := c.toNat
  (9 ≤ n ∧ n ≤ 13) ∨ (28 ≤ n ∧ n ≤ 32) ∨ n = 0x85 ∨ n = 0xa0 ∨ n = 0x1680
    ∨ (0x2000 ≤ n ∧ n ≤ 0x200a) ∨ n = 0x2028 ∨ n = 0x2029 ∨ n = 0x202f ∨ n = 0x205f ∨ n = 0x3000

/-- `str.strip`. -/
def strip (value : String) : String :=
  String.ofList ((value.toList.dropWhile isSpace).reverse.dropWhile isSpace).reverse

/-- `str.isascii`. -/
def isAscii (value : String) : Bool := value.toList.all (·.toNat < 128)

/-- The exceptions of `app/core/errors.py`, and two of libraries that reach the services. -/
inductive DomainError where
  | notFound (resource : String) (entityId : Uuid)
  | conflict (message : String)
  | invalidState (message : String)
  | businessValidation (message : String)
  | authentication (message : String)
  | authorization (message : String)
  /-- pydantic refuses to build a model. -/
  | schema
  /-- `hmac.compare_digest` raises `TypeError` on texts that are not ASCII. -/
  | typeError
deriving DecidableEq, Repr

/-- What the repository makes of an `IntegrityError` of the database. -/
def DomainError.integrity : DomainError := .conflict "数据违反唯一性或关联约束"

/-- `hmac.compare_digest` on texts. -/
def compareDigest (a b : String) : Except DomainError Bool :=
  if isAscii a ∧ isAscii b then .ok (a = b) else .error .typeError

end QaPlatform
