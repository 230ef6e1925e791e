import RandomInstant.Choice.Seeded
import RandomInstant.Log.Record
import RandomInstant.Program.Random

/-!
# Programs from seeds

`generate` runs the decision of a program on the keystream of a seed. The run keeps what was noted
on the way, and `Generation.log` words it as log records, in order and preceded by the seed. Of
these `Generation.logUpTo` keeps what a level lets through.
-/

namespace RandomInstant

/-- The log record that words a remark. -/
def Remark.logRecord : Remark → Log.Record
  | .counted drawn count =>
    ⟨.debug, "instgen_core::generator",
      "drew statement count " ++ drawn.toNat.repr ++ ", generating " ++ count.toNat.repr
        ++ " statements"⟩
  | .declared name => ⟨.trace, "instgen_core::generator", "declared " ++ name⟩
  | .drew place s =>
    ⟨.trace, "instgen_core::generator",
      "statement " ++ place.repr ++ ": " ++ s.tokens.text⟩

/-- What comes of drawing a program from a seed. -/
abbrev Generation := Run Remark Keystream Program

/-- The program of a seed. -/
def generate (c : Config) (seed : UInt64) : Generation :=
  (Program.random c).run Source.seeded (Keystream.ofSeed seed)

/-- The record that names the seed of a program. -/
def seedRecord (seed : UInt64) : Log.Record :=
  ⟨.debug, "instgen_core", "generating program with seed " ++ seed.toNat.repr⟩

/-- All log records of what came of a seed, in order. A program that was not finished has logged
whatever was noted before it failed. -/
def Generation.log (seed : UInt64) (g : Generation) : List Log.Record :=
  seedRecord seed :: g.notes.map Remark.logRecord

/-- The log records that are let through up to a level. -/
def Generation.logUpTo (threshold : Log.Threshold) (seed : UInt64) (g : Generation) :
    List Log.Record :=
  (g.log seed).filter fun r => threshold.admits r.level

end RandomInstant
