import Storyboard.Proofs.Program.Build

/-!
# Editing sessions

A session holds the program of the last source that could be built and counts the sources that could.
A source that cannot be built leaves the session as it is.
-/

namespace Storyboard

variable {T G : Type} [Scalar T] [Scalar G] [Narrow T G]

namespace Session

/-- The programs of those sources that can be built, in their order. -/
def builtFrom (s : Settings T G) (sources : List String) : List (Program T G) :=
  sources.filterMap fun source => (Program.build s source).toOption

theorem builtFrom_snoc (s : Settings T G) (sources : List String) (source : String) :
    builtFrom s (sources ++ [source]) =
      builtFrom s sources ++ (Program.build s source).toOption.toList := by
  unfold builtFrom
  rw [List.filterMap_append]
  cases built : Program.build s source <;> simp [built, Except.toOption]

variable (session : Session T G) (source : String)

theorem update_of_error {e : BuildError}
    (refused : Program.build session.settings source = .error e) :
    session.update source = (.error e, session) := by
  rw [update, refused]

theorem update_of_ok {p : Program T G} (built : Program.build session.settings source = .ok p) :
    session.update source = (.ok p, { session with
      program := some p, revision := session.revision + 1 }) := by
  rw [update, built]

theorem update_fst : (session.update source).1 = Program.build session.settings source := by
  cases built : Program.build session.settings source with
  | error e => rw [update_of_error session source built]
  | ok p => rw [update_of_ok session source built]

theorem updateAll_snoc (sources : List String) :
    session.updateAll (sources ++ [source]) = ((session.updateAll sources).update source).2 := by
  rw [updateAll, List.foldl_append]
  rfl

theorem updateAll_new (s : Settings T G) (sources : List String) :
    ({ settings := s } : Session T G).updateAll sources =
      { settings := s, program := (builtFrom s sources).getLast?
        revision := (builtFrom s sources).length } := by
  induction sources using List.reverseRecOn with
  | nil => rfl
  | append_singleton sources source ih =>
    rw [updateAll_snoc, ih, builtFrom_snoc]
    cases built : Program.build s source with
    | error e => simp [update, built, Except.toOption]
    | ok p => simp [update, built, Except.toOption]

/-- After any sources a session holds the last program that was built and the number of those built.
The next source adds its program, or gives an error and changes nothing. It gives an error if and only
if it does not parse or a color of the theme does not read, and never because of its layout. -/
theorem updates_recover (s : Settings T G) (sources : List String) (source : String) :
    let session := ({ settings := s } : Session T G).updateAll sources
    let result := session.update source
    session.program = (builtFrom s sources).getLast? ∧
    session.revision = (builtFrom s sources).length ∧
    (∀ p, result.1 = .ok p →
      result.2 = { session with program := some p, revision := session.revision + 1 }) ∧
    (∀ e, result.1 = .error e → result.2 = session) ∧
    ((∃ e, result.1 = .error e) ↔
      (∃ failure, (Document.parse source : Except ParseFailure (Document.Parsed T G)) =
        .error failure) ∨
      ∃ text ∈ s.theme.colors, ∃ e,
        (Color.read T text : Except ColorError (Color G)) = .error e) ∧
    ∀ e, result.1 ≠ .error (.layout e) := by
  intro session result
  have held : session = _ := updateAll_new s sources
  have settings : session.settings = s := congrArg Session.settings held
  have answer : result.1 = Program.build s source := by
    rw [← settings]
    exact session.update_fst source
  refine ⟨congrArg Session.program held, congrArg Session.revision held, ?_, ?_, ?_, ?_⟩
  · intro p ok
    rw [answer, ← settings] at ok
    exact congrArg Prod.snd (session.update_of_ok source ok)
  · intro e refused
    rw [answer, ← settings] at refused
    exact congrArg Prod.snd (session.update_of_error source refused)
  · rw [answer, Program.build_error_iff, ThemeSettings.compileOptions_error_iff]
  · rw [answer]
    exact Program.build_ne_layout s source

end Session

end Storyboard
