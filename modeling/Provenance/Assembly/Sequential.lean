import Provenance.Assembly.Query

/-!
Contract: the optional facts, asked one after another.

Owns: `collect`, which stops at the first outcome that ends the assembly.

Does **not** own: asking side by side.
-/

set_option autoImplicit false

namespace Provenance.Assembly.Sequential

variable {Time : Type}

/-- The outcomes of some queries in order, up to the first failure that is fatal. -/
def outcomes (ask : Query → Program Time Finding) :
    List Query → Program Time (List (Query × Outcome))
  | [] => pure []
  | query :: rest => do
    match ← outcomeOf ask query with
    | .fatal failure => Program.fail failure
    | .unfinished => Program.fail (.fault .unfinished)
    | outcome =>
      let others ← outcomes ask rest
      pure ((query, outcome) :: others)

def collect (ask : Query → Program Time Finding) : Program Time Facts :=
  Facts.ofOutcomes <$> outcomes ask Query.all

end Provenance.Assembly.Sequential
