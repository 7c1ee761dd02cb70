import PolyglotSql.Dialect.Adapt
import PolyglotSql.Tree.Render

/-!
# PolyglotSql.Translator

From a canonical tree to the SQL of a dialect: the tree is adapted in place, then rendered under
the dialect's quote character.
-/

namespace PolyglotSql

/-- A dialect with a quoting mode. -/
structure Translator where
  dialect : Dialect
  mode : QuoteMode
deriving DecidableEq, Inhabited

namespace Translator

/-- The quoting policy of rendered texts. -/
def style (t : Translator) : QuoteStyle :=
  { mode := t.mode, quote := t.dialect.quoteChar }

/-- Adapts a tree and renders it. -/
def translateTree (t : Translator) : Edit (Except Refusal RenderedSql) := do
  match ← t.dialect.adapt with
  | .error refusal => pure (.error refusal)
  | .ok _ => do
    let rendered ← Edit.read (·.render t.style)
    pure (.ok rendered)

end Translator
end PolyglotSql
