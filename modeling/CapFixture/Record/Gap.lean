/-!
# Gaps

Between any two parts of a record there may be a gap of white space and comments. A comment runs
to the end of its line, or from `/*` to the matching `*/`.
-/

namespace CapFixture.Record

/-- What a gap may hold outside of comments. -/
def isSpace (c : Char) : Bool := c == ' ' || c == '\t' || c == '\n' || c == '\r'

/-- Where in a gap a reader stands. -/
inductive GapState where
  | between
  | lineComment
  /-- Inside a comment that is inside so many others. -/
  | blockComment (depth : Nat)

/-- Drops the rest of a gap. There is none if a comment is not closed or a slash opens none. -/
def skipGapFrom : GapState → List Char → Option (List Char)
  | .between, [] => some []
  | .between, '/' :: '/' :: cs => skipGapFrom .lineComment cs
  | .between, '/' :: '*' :: cs => skipGapFrom (.blockComment 0) cs
  | .between, c :: cs =>
    if c = '/' then none
    else if isSpace c then skipGapFrom .between cs
    else some (c :: cs)
  | .lineComment, [] => some []
  | .lineComment, c :: cs => skipGapFrom (if c = '\n' then .between else .lineComment) cs
  | .blockComment _, [] => none
  | .blockComment depth, '/' :: '*' :: cs => skipGapFrom (.blockComment (depth + 1)) cs
  | .blockComment 0, '*' :: '/' :: cs => skipGapFrom .between cs
  | .blockComment (depth + 1), '*' :: '/' :: cs => skipGapFrom (.blockComment depth) cs
  | .blockComment depth, _ :: cs => skipGapFrom (.blockComment depth) cs

/-- Drops the gap at the start. -/
def skipGap (cs : List Char) : Option (List Char) := skipGapFrom .between cs

/-- Reads one character. -/
def expect (wanted : Char) : List Char → Option (List Char)
  | [] => none
  | c :: cs => if c = wanted then some cs else none

end CapFixture.Record
