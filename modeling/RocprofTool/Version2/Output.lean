import RocprofTool.Output

/-!
# The output of version 2

The template of version 2 does the same for every service: an output that is enabled and has data
is counted, adds to the statistics and gets its CSV file.
-/

set_option autoImplicit false

open Tool

namespace Version2

variable {Other : DomainType → Type} {Stats : Type}

/-- `generate_output<Tp, DomainT>`. -/
def generateOutput (lib : Library Other Stats) (cfg : Config) : Template Other Stats :=
  fun d output s ↦
    let s := { s with cleanups := s.cleanups ++ [d] }
    if !output.enabled then (output, s)
    else if cfg.benchmarkMode ≠ .none then (output, s)
    else if output.generator.empty then (output, s)
    else collectOutput lib cfg output s

/-- The thirteen calls of `generate_output`. -/
def generateOutputs (lib : Library Other Stats) (cfg : Config) (contents : Contents Other) :
    OutputState Stats :=
  Tool.generateOutputs (generateOutput lib cfg) lib cfg contents passedDomains {}

variable {lib : Library Other Stats} {cfg : Config} {contents : Contents Other}

/-- The template collects every output with data. -/
theorem generateOutput_collects (hbench : cfg.benchmarkMode = .none) :
    (generateOutput lib cfg).Collects lib cfg contents (produces cfg contents) fun _ ↦ [] := by
  intro d s
  cases hen : cfg.enabledFor d with
  | false => simp [generateOutput, bufferedOutput, produces, hen]
  | true =>
    cases hempty : (contents.generator d).empty with
    | true => simp [generateOutput, bufferedOutput, produces, hen, hbench, hempty]
    | false =>
      have hcollect : (generateOutput lib cfg d (bufferedOutput lib cfg contents d) s)
          = collectOutput lib cfg (bufferedOutput lib cfg contents d)
              { s with cleanups := s.cleanups ++ [d] } := by
        simp [generateOutput, bufferedOutput, hen, hbench, hempty]
      rw [hcollect, collectOutput_eq]
      simp [produces, hen, hempty, publishEffects]

/-- **Version 2 accounts for everything**, if there are statistics for every output with data. -/
theorem generateOutputs_complete (hbench : cfg.benchmarkMode = .none)
    (hstats : ∀ d, (contents.generator d).empty = false →
      lib.hasStats (lib.generateStats cfg d (contents.generator d)) = true) :
    Complete cfg contents (generateOutputs lib cfg contents) := by
  refine complete_of_collects (generateOutput_collects hbench) rfl fun _ d hd ↦ hstats d ?_
  rw [produces, Bool.and_eq_true] at hd
  simpa using hd.2

end Version2
