import NetbookInstaller.Dsdt.ConfigPass

/-! The config pass as a transducer over the lines of the text. -/
namespace Dsdt.ConfigPass

open Transition

/-- What the pass does with the next line. In mode `closed` the line read last has ended the
block. -/
inductive Mode where
  | search
  | block (openBrackets : Count)
  | closed
  | copying
  deriving DecidableEq, Repr

/-- The line with the search string and its block are left out, and the patch is written at the
end of the block. With no line behind it, what the buffer holds is written. -/
def modes (searchString : Line) (patch : List Line) : Transducer Mode Line where
  next
    | .search, line => if cmpStr line searchString then .block 0 else .search
    | .block openBrackets, line =>
      if openBrackets + bracketDelta line = 0 then .closed
      else .block (openBrackets + bracketDelta line)
    | .closed, _ | .copying, _ => .copying
  copy
    | .search, line => if cmpStr line searchString then none else some line
    | .block _, _ => none
    | .closed, line | .copying, line => some line
  adds
    | .block openBrackets, line => if openBrackets + bracketDelta line = 0 then patch else []
    | _, _ => []
  last
    | .search, _ | .copying, _ => some []
    | .block openBrackets, line =>
      (spins openBrackets (bracketDelta line)).map fun _ => patch ++ [lastRead line patch]
    | .closed, line => some [lastRead line patch]

/-- The states of the pass between two lines. -/
def Sees : Mode → Line → List Line → ConfigPass → Prop
  | .search, buffer, rest, s => ∃ output, s = ⟨rest, buffer, 0, true, false, output⟩
  | .block openBrackets, buffer, rest, s =>
    ∃ output, s = ⟨rest, buffer, openBrackets, true, true, output⟩
  | .closed, _, _, _ => False
  | .copying, buffer, rest, s => ∃ output, s = ⟨rest, buffer, 0, false, false, output⟩

variable (searchString : Line) (patch : List Line)

/-- The pass writes what the transducer says. -/
theorem computes_modes (lines : List Line) :
    Computes (step searchString patch) ConfigPass.output (startOn lines)
      ((modes searchString patch).output .search [] lines) := by
  refine computes_items Sees ?_ ⟨[], rfl⟩
  intro m buffer rest s hs
  cases m with
  | closed => exact hs.elim
  | copying =>
    obtain ⟨output, rfl⟩ := hs
    cases rest with
    | nil => exact .done (computes_halted rfl)
    | cons line rest =>
      exact .read [] rest (step_copy fun _ => rfl) rfl ⟨_, rfl⟩
  | search =>
    obtain ⟨output, rfl⟩ := hs
    cases rest with
    | nil => exact .done (computes_halted rfl)
    | cons line rest =>
      by_cases hfound : cmpStr line searchString = true
      · refine .read [] rest (step_search hfound) ?_ ?_ <;> simp [modes, Sees, hfound]
      · refine .read [] rest (step_copy fun h => absurd h hfound) ?_ ?_ <;>
          simp [modes, Sees, hfound]
  | block openBrackets =>
    obtain ⟨output, rfl⟩ := hs
    cases rest with
    | nil =>
      have hstale := computes_stale searchString patch buffer openBrackets true output
      exact .done (by simpa [modes] using hstale)
    | cons line rest =>
      by_cases hzero : openBrackets + bracketDelta line = 0
      · cases rest with
        | nil =>
          obtain ⟨t, ht, hout⟩ := evaluates_close searchString patch
            (s := ⟨[line], buffer, openBrackets, true, true, output⟩) rfl hzero
          refine .done (ht.computes (v := patch ++ [lastRead line patch]) ?_ ?_)
          · simp [Transducer.output, Transducer.ending, modes, hzero]
          · simpa [tail] using hout
        | cons next rest =>
          have hstep : step searchString patch
              ⟨line :: next :: rest, buffer, openBrackets, true, true, output⟩ =
              some ⟨rest, next, 0, false, false, output ++ patch ++ [next]⟩ := by
            simp [step, blockStep, replace, fprintf, hzero]
          refine .read [next] rest hstep ?_ ?_ <;> simp [modes, Sees, hzero]
      · refine .read [] rest (step_count hzero) ?_ ?_ <;> simp [modes, Sees, hzero]

/-- The last line of a file ends the loop that the file leaves the pass in. -/
def Mode.Ends : Mode → Line → Prop
  | .block openBrackets, line => bracketDelta line = 0 → openBrackets = 0
  | .search, _ | .closed, _ | .copying, _ => True

theorem last_isSome (m : Mode) (line : Line) :
    ((modes searchString patch).last m line).isSome ↔ m.Ends line := by
  cases m with
  | block openBrackets => simp [modes, Mode.Ends, spins_isSome (bracketDelta_cases line)]
  | search => exact iff_of_true rfl trivial
  | closed => exact iff_of_true rfl trivial
  | copying => exact iff_of_true rfl trivial

theorem halts_iff (lines : List Line) :
    Halts (step searchString patch) (startOn lines) ↔
      ((modes searchString patch).after .search lines).Ends (lines.getLastD []) := by
  rw [(computes_modes searchString patch lines).halts_iff, Transducer.output_isSome,
    Transducer.ending, last_isSome]

end Dsdt.ConfigPass
