/-
# The exceptions

The classes of `exceptions.py` that the modelled code raises, with the
arguments their constructors take, and the exceptions of the libraries below it
(`pydantic`, `sqlite3`, `psycopg2`, `json`) as far as the code tells them apart.

`PyErr.str` is `str(e)` of the classes of `exceptions.py`: the message each
constructor assembles from its arguments.
-/

import ProvableAi.Crypto.Hex

namespace ProvableAi

/-- An exception. -/
inductive PyErr where
  | unauthorizedModelVersion (modelVersion : String) (approvedVersions : List String)
  | policyViolation (policyRule decisionContext : String)
  | agentVersionMismatch (agentVersion approvedVersion : String)
  | kmsUnavailable (keyId underlyingError : String)
  | signingFailed (keyId underlyingError : String)
  | ledgerError (message : String)
  | chainBroken (sequenceId : ℤ) (expectedHash actualHash : String)
  | sequenceGap (expectedSequenceId actualSequenceId : ℤ)
  | duplicateSequenceId (sequenceId : ℤ)
  | canonicalJsonError (field valueType : String)
  /-- `ValueError`, raised by this repository with its text. -/
  | valueError (message : String)
  /-- `pydantic.ValidationError`: a model refused its fields. -/
  | validationError
  /-- `TypeError`: a value of the wrong type, such as one `json.dumps` cannot write. -/
  | typeError
  /-- `AttributeError`: `.get` of what is no `dict`. -/
  | attributeError
  /-- `json.JSONDecodeError`. -/
  | jsonDecodeError
  /-- `KeyError`. -/
  | keyError (key : String)
  /-- `sqlite3.IntegrityError`: a `CHECK`, `NOT NULL` or `UNIQUE` constraint. -/
  | integrityError
  /-- `sqlite3.OperationalError`: the database is locked. -/
  | operationalError
  /-- `OverflowError`: an infinity has no integer, an `INTEGER` column 64 bits. -/
  | overflowError
  /-- `UnicodeEncodeError`: a lone surrogate has no UTF-8. -/
  | unicodeEncodeError
  /-- `StorageUnavailable` of `postgres_storage.py`. -/
  | storageUnavailable (message : String)
  /-- `psycopg2.errors.CheckViolation`. -/
  | checkViolation
  /-- `psycopg2.errors.NumericValueOutOfRange`. -/
  | numericValueOutOfRange
  /-- `psycopg2.OperationalError`: the server ended the transaction. -/
  | serverError
  deriving DecidableEq

namespace PyErr

/-- How `repr` writes a character of a text quoted by `q`. -/
def reprChar (q c : Char) : List Char :=
  if c = '\\' then ['\\', '\\']
  else if c = q then ['\\', q]
  else if c = '\n' then ['\\', 'n']
  else if c = '\r' then ['\\', 'r']
  else if c = '\t' then ['\\', 't']
  else if c.toNat < 32 ∨ c.toNat = 127 then ['\\', 'x', hexDigit (c.toNat / 16), hexDigit (c.toNat % 16)]
  else [c]

/-- `repr(s)`, characters beyond ASCII taken as printable. -/
def reprStr (s : String) : String :=
  let q := if s.toList.contains '\'' && !s.toList.contains '"' then '"' else '\''
  String.ofList (q :: s.toList.flatMap (reprChar q) ++ [q])

/-- `repr` of a list of texts. -/
def reprList (xs : List String) : String := "[" ++ ", ".intercalate (xs.map reprStr) ++ "]"

/-- `str(e)`. -/
def str : PyErr → String
  | unauthorizedModelVersion v vs =>
    "Model version '" ++ v ++ "' is not approved. Approved: " ++ reprList vs
  | policyViolation rule ctx => "Policy violation: rule '" ++ rule ++ "' — " ++ ctx
  | agentVersionMismatch v w =>
    "Agent version '" ++ v ++ "' does not match approved version '" ++ w ++ "'"
  | kmsUnavailable k e => "KMS unavailable for key '" ++ k ++ "': " ++ e
  | signingFailed k e => "Signing failed for key '" ++ k ++ "': " ++ e
  | ledgerError m => m
  | chainBroken n e a =>
    "Hash chain broken at sequence_id=" ++ toString n ++ ". Expected prev='" ++ slice 16 e ++
      "...', got '" ++ slice 16 a ++ "...'"
  | sequenceGap e a => "Sequence gap: expected " ++ toString e ++ ", got " ++ toString a
  | duplicateSequenceId n => "Duplicate sequence_id=" ++ toString n ++ " in ledger"
  | canonicalJsonError f t =>
    "Field '" ++ f ++ "' has non-canonical type '" ++ t ++ "'. " ++
      "Allowed: str, int, bool, list, dict, None. " ++
      "Floats → int or str. Datetimes → ISO 8601 str."
  | valueError m => m
  | validationError => "validation error"
  | typeError => "not JSON serializable"
  | attributeError => "object has no attribute 'get'"
  | jsonDecodeError => "Expecting value"
  | keyError k => reprStr k
  | integrityError => "constraint failed"
  | operationalError => "database is locked"
  | overflowError => "Python int too large to convert to SQLite INTEGER"
  | unicodeEncodeError => "surrogates not allowed"
  | storageUnavailable m => m
  | checkViolation => "new row violates check constraint"
  | numericValueOutOfRange => "integer out of range"
  | serverError => "transaction ended by the server"

/-- `e.__class__.__name__`. -/
def className : PyErr → String
  | unauthorizedModelVersion .. => "UnauthorizedModelVersion"
  | policyViolation .. => "PolicyViolation"
  | agentVersionMismatch .. => "AgentVersionMismatch"
  | kmsUnavailable .. => "KMSUnavailable"
  | signingFailed .. => "SigningFailed"
  | ledgerError _ => "LedgerError"
  | chainBroken .. => "ChainBroken"
  | sequenceGap .. => "SequenceGap"
  | duplicateSequenceId _ => "DuplicateSequenceId"
  | canonicalJsonError .. => "CanonicalJsonError"
  | valueError _ => "ValueError"
  | validationError => "ValidationError"
  | typeError => "TypeError"
  | attributeError => "AttributeError"
  | jsonDecodeError => "JSONDecodeError"
  | keyError _ => "KeyError"
  | integrityError => "IntegrityError"
  | operationalError => "OperationalError"
  | overflowError => "OverflowError"
  | unicodeEncodeError => "UnicodeEncodeError"
  | storageUnavailable _ => "StorageUnavailable"
  | checkViolation => "CheckViolation"
  | numericValueOutOfRange => "NumericValueOutOfRange"
  | serverError => "OperationalError"

example : reprList ["v1", "it's"] = "['v1', \"it's\"]" := by decide

end PyErr

/-! ### Code that may raise -/

theorem bind_eq_ok_iff {ε α β : Type} {x : Except ε α} {f : α → Except ε β} {b : β} :
    (x >>= f) = .ok b ↔ ∃ a, x = .ok a ∧ f a = .ok b := by
  cases x with
  | error e => simp [bind, Except.bind]
  | ok a => simp [bind, Except.bind]

theorem ok_bind {ε α β : Type} (a : α) (f : α → Except ε β) : (Except.ok a >>= f) = f a := rfl

end ProvableAi
