import StringAudit.Text.CaseTable

/-!
# Lower-casing

Every capital becomes its small letter.  Two letters are special: `İ` becomes `i` followed by the
combining dot above, and a capital sigma becomes `ς` at the end of a word and `σ` elsewhere.
-/

namespace StringAudit.Text

/-- Membership in a list of ranges of code points. -/
def inRanges (ranges : List (Nat × Nat)) (c : Char) : Bool :=
  ranges.any fun r => r.1 ≤ c.toNat && c.toNat ≤ r.2

/-- Whether the first character that counts is a letter with a case. -/
def meetsCased (s : List Char) : Bool :=
  (s.find? fun c => !inRanges caseIgnorableRanges c).any (inRanges casedRanges)

/-- Whether a capital is listed in a run. -/
def CaseRun.covers (r : CaseRun) (c : Char) : Bool :=
  r.first ≤ c.toNat && c.toNat ≤ r.last && (c.toNat - r.first) % r.step = 0

/-- The small form of a character other than the capital sigma. -/
def lowerChar (c : Char) : List Char :=
  if c = 'İ' then ['i', '\u0307']
  else match capitalRuns.find? (·.covers c) with
    | some r => [Char.ofNat (c.toNat + r.shift).toNat]
    | none => [c]

/-- The small form of a text that follows `before`, which is given last character first. -/
def lowerAfter : List Char → List Char → List Char
  | _, [] => []
  | before, c :: rest =>
      (if c = 'Σ' then [if meetsCased before && !meetsCased rest then 'ς' else 'σ']
        else lowerChar c) ++ lowerAfter (c :: before) rest

/-- The text in small letters. -/
def lowercase (s : List Char) : List Char :=
  lowerAfter [] s

end StringAudit.Text
