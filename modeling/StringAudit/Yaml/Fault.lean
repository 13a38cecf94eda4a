/-!
# Faults of YAML texts

A text that is no YAML document at all is malformed.  A document may also hold a scalar that is called a
number, a character, a truth value or a point in time, and is none.
-/

namespace StringAudit.Yaml

/-- What can be wrong with a scalar. -/
inductive ScalarFault
  /-- The value lies outside the range of its type, or its text is not of that type. -/
  | outOfRange
  /-- The number of a character does not even fit in a machine word. -/
  | tooLarge
  /-- A number has no digits at all. -/
  | noDigits
  /-- A scalar is called a truth value and is none. -/
  | noTruthValue
  /-- A scalar is called a point in time and is none. -/
  | noTimestamp
  deriving DecidableEq, Repr

/-- What can be wrong with a text. -/
inductive Fault
  | malformed
  | scalar (fault : ScalarFault)
  deriving DecidableEq, Repr

end StringAudit.Yaml
