import CodeAtlas.CommandLine.Program

/-!
# Runs

A run whose arguments name a command and that has a configuration to go by shows what comes of the
command: its answer with exit code zero or one, or its failure with exit code two.
-/

namespace CodeAtlas.CommandLine

namespace Program

variable {setting : Setting} {arguments : List String} {path : String} {command : Command}
  {configuration : Configuration} {workspace : Workspace}

/-- What is shown of a command's outcome. -/
def shown : Except Failure Answer × Workspace → Output × Workspace
  | (.ok answer, workspace) => (answer.output, workspace)
  | (.error failure, workspace) => ({ code := 2, complaint := failure.text ++ "\n" }, workspace)

theorem run_of_parse (hparse : Invocation.parse arguments = .ok ⟨path, command⟩)
    (hconfigured : configured setting path workspace = .ok configuration) :
    run setting arguments workspace =
      shown (perform setting configuration path command workspace) := by
  have hinvoke : invoke setting ⟨path, command⟩ workspace =
      perform setting configuration path command workspace := by rw [invoke, hconfigured]
  rw [run, hparse]
  simp only [hinvoke]
  rcases perform setting configuration path command workspace with ⟨failure | answer, after⟩ <;> rfl

end Program

end CodeAtlas.CommandLine
