import StringAudit.Charset.Fault
import StringAudit.Yaml.Fault
import StringAudit.Yaml.Value

/-!
# YAML from a library

The program has a library read the settings file.  The library decodes the bytes of the file as it needs them
and gives the value of the document, or says what is wrong with it in words of its own.  Nothing is supposed
of it here.
-/

namespace StringAudit.Yaml

/-- Why bytes have no value. -/
inductive LoadFault
  /-- They are not UTF-8, as far as they were decoded. -/
  | undecodable (fault : DecodeFault)
  /-- They are no document, for a reason that the message of the library gives. -/
  | malformed (reason : WideText)
  /-- A scalar is not of its type. -/
  | scalar (fault : ScalarFault)
  deriving DecidableEq, Repr

/-- What loading the bytes of a file comes to. -/
class Loader where
  load (bytes : List UInt8) : Except LoadFault Value

end StringAudit.Yaml
