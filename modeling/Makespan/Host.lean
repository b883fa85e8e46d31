import Makespan.Files.Tree
import Makespan.Settings
import Makespan.Workflow.Basic

/-! What the program finds where it runs. The system and the libraries word their failures
themselves, and documents are read by a reader that is not the program's own; nothing is asked of
any of them. -/

namespace Makespan

structure Host where
  /-- All files, as they are while the program runs. -/
  place : Place
  /-- Why the file at a path cannot be read. -/
  unreadable : String → String
  /-- The description that a document holds, not checked yet, or what is wrong with the document. -/
  workflow : String → Except String Workflow
  /-- The same for settings. -/
  settings : String → Except String Settings
  /-- How it is told that a run broke down; the runs of a sweep are told apart by number. -/
  breakdown : Nat → String

end Makespan
