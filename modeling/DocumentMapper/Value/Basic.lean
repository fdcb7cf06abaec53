import DocumentMapper.Decimal.Binary64
import DocumentMapper.Keyed

/-!
# Values

What a document database stores and a query yields.  A document is a keyed list,
so its keys are shown in the order in which they were first written.

A value also carries types that are only passed through: they can be stored and
read back, but no lookup tells two values of such a type apart.  Regular expressions,
code with a scope, decimals of 128 bits, pointers into a database and the subtypes of
binary data are left out; but for the text that they are written as, every function
takes them as it takes the other types that are passed through.
-/

namespace DocumentMapper

inductive Width where
  | short
  | long
deriving DecidableEq

inductive Value where
  | null
  | bool (b : Bool)
  | int (width : Width) (n : Int)
  | double (x : Binary64)
  | string (s : String)
  | array (items : List Value)
  | document (entries : List (String × Value))
  /-- Milliseconds from the start of 1970. -/
  | date (millis : Int)
  | objectId (octets : List UInt8)
  | binary (octets : List UInt8)
  | timestamp (seconds increment : Nat)
  | code (source : String)
  | symbol (s : String)
  | undefined
  | minKey
  | maxKey
deriving Inhabited

abbrev Document := List (String × Value)

namespace Value

def isNull : Value -> Bool
  | null => true
  | _ => false

def isNumber : Value -> Bool
  | int _ _ => true
  | double _ => true
  | _ => false

def string? : Value -> Option String
  | string s => some s
  | _ => none

/-- The text that a record takes a value for: a string, or octets in UTF-8. -/
def decoded? : Value -> Option String
  | string s => some s
  | binary octets => String.fromUTF8? (ByteArray.mk octets.toArray)
  | _ => none

def document? : Value -> Option Document
  | document entries => some entries
  | _ => none

def integer? : Value -> Option Int
  | int _ n => some n
  | _ => none

def double? : Value -> Option Binary64
  | int _ n => some (Binary64.ofInt n)
  | double x => some x
  | _ => none

theorem isNull_iff {v : Value} : v.isNull = true <-> v = null := by
  cases v <;> simp [isNull]

theorem document?_eq_some {v : Value} {entries : Document} :
    v.document? = some entries <-> v = document entries := by
  cases v <;> simp [document?]

theorem string?_eq_some {v : Value} {s : String} :
    v.string? = some s <-> v = string s := by
  cases v <;> simp [string?]

end Value
end DocumentMapper
