/-
Sessions of a calculator.

Whatever commands a calculator has carried out, its tables are usable: a command that
asks for a new table is accepted exactly if the three tables that would result are, and
a refused one leaves the calculator as it was.
-/

import DecimalCalculator.Calculator
import DecimalCalculator.Proofs.Expression.Tables

namespace DecimalCalculator

namespace Calculator

variable {calculator : Calculator} {command : Command} {tables : SymbolTables}

/-! ### One command -/

/-- The tables that would result from a command that exchanges one of them. -/
def Command.requestedTables? (tables : SymbolTables) : Command → Option SymbolTables
  | .setBrackets brackets => some { tables with brackets := brackets }
  | .setOperators operators => some { tables with operators := operators }
  | .setSuffixes suffixes => some { tables with suffixes := suffixes }
  | .calculate _ | .build _ | .evaluate _ | .setDisplayScale _ | .setContext _ | .setResolver _ =>
      none

theorem step_of_requested (requested : command.requestedTables? calculator.tables = some tables) :
    calculator.step command = calculator.withTables tables.validated := by
  cases command with
  | setBrackets | setOperators | setSuffixes =>
      cases requested
      rfl
  | calculate | build | evaluate | setDisplayScale | setContext | setResolver => cases requested

theorem step_of_usable (requested : command.requestedTables? calculator.tables = some tables)
    (usable : tables.Unambiguous) :
    calculator.step command = ({ calculator with tables := tables }, .done) := by
  rw [step_of_requested requested, SymbolTables.validated_of_unambiguous usable]
  rfl

theorem exists_step_of_unusable
    (requested : command.requestedTables? calculator.tables = some tables)
    (unusable : ¬tables.Unambiguous) :
    ∃ error, calculator.step command = (calculator, .failed (.table error)) := by
  obtain ⟨error, refused⟩ := SymbolTables.exists_validated_eq_error unusable
  refine ⟨error, ?_⟩
  rw [step_of_requested requested, refused]
  rfl

theorem tables_withContext (outcome : Outcome Context) :
    (calculator.withContext outcome).1.tables = calculator.tables := by
  cases outcome with
  | error => rfl
  | ok => rfl

theorem tables_step_of_unrequested
    (unrequested : command.requestedTables? calculator.tables = none) :
    (calculator.step command).1.tables = calculator.tables := by
  cases command with
  | setBrackets | setOperators | setSuffixes => cases unrequested
  | setDisplayScale => exact tables_withContext _
  | calculate | build | evaluate | setContext | setResolver => rfl

theorem unambiguous_step (command : Command) (usable : calculator.tables.Unambiguous) :
    (calculator.step command).1.tables.Unambiguous := by
  cases requested : command.requestedTables? calculator.tables with
  | none =>
      rw [tables_step_of_unrequested requested]
      exact usable
  | some tables =>
      by_cases accepted : tables.Unambiguous
      · rw [step_of_usable requested accepted]
        exact accepted
      · obtain ⟨error, refused⟩ := exists_step_of_unusable requested accepted
        rw [refused]
        exact usable

/-! ### Any number of commands -/

theorem unambiguous_run (commands : List Command) (usable : calculator.tables.Unambiguous) :
    (calculator.run commands).1.tables.Unambiguous := by
  induction commands generalizing calculator with
  | nil => exact usable
  | cons command rest ih => exact ih (unambiguous_step command usable)

/-- After any commands that follow the start with the standard settings or with valid
tables, the tables are unambiguous.  From there, a command that asks for a new table is
accepted exactly if the tables stay unambiguous.  It then changes this table alone, and
a refused one changes nothing. -/
theorem run_keeps_tables_usable (start : Calculator)
    (fresh : start = {} ∨ start.tables.validate = .ok ()) (commands : List Command)
    {session : Calculator} {replies : List Reply} (ran : start.run commands = (session, replies)) :
    session.tables.Unambiguous ∧
      ∀ command tables, command.requestedTables? session.tables = some tables →
        ((session.step command).2 = .done ↔ tables.Unambiguous) ∧
        ((session.step command).2 = .done →
          (session.step command).1 = { session with tables := tables }) ∧
        ∀ failure, (session.step command).2 = .failed failure →
          (session.step command).1 = session := by
  have usable : start.tables.Unambiguous := by
    rw [← SymbolTables.validate_eq_ok_iff]
    cases fresh with
    | inl standard =>
        rw [standard]
        rfl
    | inr valid => exact valid
  have kept := unambiguous_run commands usable
  rw [ran] at kept
  refine ⟨kept, ?_⟩
  intro command tables requested
  by_cases accepted : tables.Unambiguous
  · rw [step_of_usable requested accepted]
    exact ⟨iff_of_true rfl accepted, fun _ => rfl, nofun⟩
  · obtain ⟨error, refused⟩ := exists_step_of_unusable requested accepted
    rw [refused]
    exact ⟨iff_of_false nofun accepted, nofun, fun _ _ => rfl⟩

theorem run_keeps_tables_usable_letter_as_operator :
    (({} : Calculator) = {} ∨ SymbolTables.standard.validate = .ok ()) ∧
      ∃ session, ({} : Calculator).run [.setOperators [⟨'+', 0⟩, ⟨'x', 1⟩], .setDisplayScale 3] =
          (session, [.done, .done]) ∧
        session.tables.Unambiguous ∧ (session.step (.setSuffixes ['x'])).1 = session ∧
        (session.step (.setSuffixes ['!'])).1 =
          { session with tables := { session.tables with suffixes := ['!'] } } := by
  obtain ⟨usable, every⟩ := run_keeps_tables_usable {} (.inl rfl)
    [.setOperators [⟨'+', 0⟩, ⟨'x', 1⟩], .setDisplayScale 3] rfl
  refine ⟨.inl rfl, _, rfl, usable, ?_, ?_⟩
  · exact (every (.setSuffixes ['x']) _ rfl).2.2 (.table (.ambiguousSymbol 'x')) rfl
  · exact (every (.setSuffixes ['!']) _ rfl).2.1 rfl

end Calculator
end DecimalCalculator
