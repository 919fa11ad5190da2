import CapFixture.Record.Gap

/-!
# Entries

Lists, maps and records hold entries with commas between them, after the last one too if so
wished, up to a closing character.
-/

namespace CapFixture.Record

/-- Reads entries up to the closing character, in as many steps as allowed. -/
def entriesFrom {σ : Type} (close : Char) (entry : σ → List Char → Option (σ × List Char)) :
    Nat → σ → List Char → Option (σ × List Char)
  | 0, _, _ => none
  | steps + 1, state, cs => do
    match ← skipGap cs with
    | [] => none
    | c :: cs =>
      if c = close then some (state, cs)
      else
        let (state, cs) ← entry state (c :: cs)
        match ← skipGap cs with
        | [] => none
        | c :: cs =>
          if c = ',' then entriesFrom close entry steps state cs
          else if c = close then some (state, cs)
          else none

/-- Reads entries up to the closing character, each of which may change a state. -/
def entries {σ : Type} (close : Char) (entry : σ → List Char → Option (σ × List Char))
    (state : σ) (cs : List Char) : Option (σ × List Char) :=
  entriesFrom close entry (cs.length + 1) state cs

end CapFixture.Record
