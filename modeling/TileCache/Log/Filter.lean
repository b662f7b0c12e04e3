import TileCache.Log.Directive

/-!
# Filters

A filter is a text of directives with commas between them.  Of those that are about a line the
closest one decides whether it is shown, and of equally close ones the last.
-/

set_option autoImplicit false

namespace TileCache.Log

structure Filter where
  directives : List Directive
deriving DecidableEq

namespace Filter

/-- The filter that shows the lines of one target from a level on. -/
def only (target : String) (level : Level) : Filter :=
  ⟨[.ofTarget target.toList level]⟩

/-- The pieces of a text between commas. -/
def pieces (text : String) : List (List Char) :=
  (text.splitOn ",").map (·.toList) |>.filter (· ≠ [])

/-- Reads a filter. -/
def read (text : String) : Except DirectiveError Filter :=
  return ⟨← (pieces text).mapM Directive.read⟩

/-- The directive that decides about lines with this target and these fields. -/
def decisive? (f : Filter) (target : List Char) (fields : List (List Char)) : Option Directive :=
  (f.directives.filter (·.concerns target fields)).foldl
    (fun best? d => match best? with
      | some best => if d.atLeastAsClose best then some d else some best
      | none => some d)
    none

/-- The level for lines with this target and these fields.  What no directive is about is not
shown. -/
def levelFor (f : Filter) (target : String) (fields : List String) : Level :=
  match f.decisive? target.toList (fields.map (·.toList)) with
  | some d => d.level
  | none => .off

theorem levelFor_only (target : String) (level : Level) (fields : List String) :
    (only target level).levelFor target fields = level := by
  have hc := Directive.concerns_ofTarget target.toList level (fields.map (·.toList))
  simp only [levelFor, decisive?, only, List.filter_cons, hc, if_true, List.filter_nil,
    List.foldl_cons, List.foldl_nil]
  rfl

/-- A filter without directives shows nothing. -/
theorem levelFor_nil (target : String) (fields : List String) :
    (Filter.mk []).levelFor target fields = .off := rfl

end Filter

end TileCache.Log
