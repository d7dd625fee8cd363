import Synod.Console.Execute
import Synod.Text.Lines

/-! How problems are shown to a user. This is the outer layer: the form of a report is that of the
library which keeps the reasons of a failure, and which problem there is does not depend on it. -/

namespace Synod.Console

/-- A report: what was tried, and under it why that failed. Further lines of the reason are
indented. -/
def report (context detail : String) : String :=
  context ++ "\n╰╴" ++ "\n  ".intercalate (Text.lines detail)

def Problem.message : Problem → String
  | .badLine error => error.message
  | .failed attempt (.refused refusal) =>
    attempt ++ ": " ++ report Refusal.context refusal.detail
  | .failed _ .locked => Fault.injected.message
  | .failed _ (.fault f) => f.message

end Synod.Console
