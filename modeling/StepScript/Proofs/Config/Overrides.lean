import StepScript.Proofs.Config.Settings

/-!
# Numbers that are overridden

A number that is overridden is passed on as a signed word of 64 bits. Below the limit of such words
it arrives as it is, whatever the other layers say. From there on it turns negative and is refused.
-/

namespace StepScript

/-- The same overrides, but for the two numbers. -/
def Overrides.withNumbers (overrides : Overrides) (pollMillis timeoutSecs : Option Nat) :
    Overrides :=
  { overrides with pollMillis, timeoutSecs }

namespace Config

/-- An unsigned word arrives if it is a signed word too. -/
theorem toWord?_signedWord {n : Nat} (h : n < wordLimit) :
    (Overrides.signedWord n).toWord? = if n < signedLimit then some n else none := by
  have hword : wordLimit = 18446744073709551616 := rfl
  have hsigned : signedLimit = 9223372036854775808 := rfl
  rw [Overrides.signedWord, Value.toWord?, Int.bmod_def, hword, hsigned]
  rw [hword] at h
  split <;> split <;> split <;> first | rfl | (congr 1; omega)

theorem toOptionalWord?_signedWord (n : Nat) :
    (Overrides.signedWord n).toOptionalWord? = (Overrides.signedWord n).toWord?.map some :=
  rfl

def Table.putNumbers (table : Table) (millis secs : Nat) : Table :=
  (table.put [.name "interpreter", .name "loop_poll_interval_ms"] (Overrides.signedWord millis)).put
    [.name "interpreter", .name "run_timeout_secs"] (Overrides.signedWord secs)

/-- The section of the numbers has them, whatever was there before. -/
theorem putNumbers_spec (table : Table) (millis secs : Nat) :
    (table.putNumbers millis secs).HasSection "interpreter" ∧
      (table.putNumbers millis secs).reads .pollMillis =
        some (Overrides.signedWord millis).toWord? ∧
      (table.putNumbers millis secs).reads .timeoutSecs =
        some ((Overrides.signedWord secs).toWord?.map some) := by
  have hsigned (n : Nat) (lower : Option Value) :
      (Overrides.signedWord n).over lower = Overrides.signedWord n := by
    unfold Overrides.signedWord Value.over
    rfl
  refine ⟨Table.hasSection_put _ _ _ _ _ (absurd (Setting.lowercase_group .pollMillis)), ?_, ?_⟩
  · rw [Table.putNumbers, Table.reads_put, if_neg (by decide +kernel), Table.reads_put,
      if_pos ⟨Setting.lowercase_group .pollMillis, Setting.lowercase_name .pollMillis⟩,
      Value.putAt, hsigned]
    rfl
  · rw [Table.putNumbers, Table.reads_put,
      if_pos ⟨Setting.lowercase_group .timeoutSecs, Setting.lowercase_name .timeoutSecs⟩,
      Value.putAt, hsigned]
    rfl

theorem get?_putNumbers (table : Table) (millis secs : Nat) {group : String}
    (h : group ≠ "interpreter") :
    (table.putNumbers millis secs).get? group = table.get? group := by
  have hgroup : Text.lowercase "interpreter" = "interpreter" :=
    Setting.lowercase_group .pollMillis
  rw [Table.putNumbers, Table.get?_put, if_neg (hgroup ▸ h.symm), Table.get?_put,
    if_neg (hgroup ▸ h.symm)]

/-- All else that is overridden is in other sections than the numbers. -/
theorem assignments_withoutNumbers (overrides : Overrides) :
    ∀ assignment ∈ (overrides.withNumbers none none).assignments, ∃ name path,
      assignment.1 = .name name :: path ∧ Text.lowercase name ≠ "interpreter" := by
  intro assignment hassignment
  obtain ⟨setting, value, hvalue, rfl⟩ := Overrides.mem_assignments.1 hassignment
  refine ⟨setting.group, [.name setting.name], rfl, ?_⟩
  rw [Setting.lowercase_group]
  cases setting with
  | pollMillis => exact absurd hvalue nofun
  | timeoutSecs => exact absurd hvalue nofun
  | missingParams | logFilter | logFormat => decide

section WithNumbers

variable (file : List (String × Value)) (environment : Environment) (overrides : Overrides)
  (millis secs : Nat)

/-- Numbers are laid over the table of the other layers before all else that is overridden. -/
theorem layered_withNumbers :
    layered file environment (overrides.withNumbers (some millis) (some secs)) =
      ((sourced file environment).putNumbers millis secs).putEach
        (overrides.withNumbers none none).assignments := by
  rw [layered_eq]
  rfl

theorem get?_withNumbers :
    (layered file environment (overrides.withNumbers (some millis) (some secs))).get?
        "interpreter" =
      ((sourced file environment).putNumbers millis secs).get? "interpreter" := by
  rw [layered_withNumbers]
  exact Table.get?_putEach_of_ne (assignments_withoutNumbers overrides)

/-- The sections without numbers are as they are where no number is overridden. -/
theorem get?_withNumbers_of_ne {group : String} (h : group ≠ "interpreter") :
    (layered file environment (overrides.withNumbers (some millis) (some secs))).get? group =
      (layered file environment (overrides.withNumbers none none)).get? group := by
  rw [layered_withNumbers, layered_eq]
  refine Table.get?_putEach_congr (fun assignment hassignment => ?_) (get?_putNumbers _ _ _ h)
  obtain ⟨name, path, hpath, -⟩ := assignments_withoutNumbers overrides assignment hassignment
  exact ⟨name, path, hpath⟩

end WithNumbers

/-- The configuration of a table with both numbers overridden. -/
theorem ofTable_withNumbers {file : List (String × Value)} {environment : Environment}
    {overrides : Overrides} {config : Config}
    (h : ofTable (layered file environment (overrides.withNumbers none none)) = .ok config)
    {millis secs : Nat} (hmillis : millis < wordLimit) (hsecs : secs < wordLimit) :
    ofTable (layered file environment (overrides.withNumbers (some millis) (some secs))) =
      if millis < signedLimit then
        if secs < signedLimit then
          .ok { config with pollMillis := millis, timeoutSecs := some secs }
        else .error (.unfitSetting "run_timeout_secs")
      else .error (.unfitSetting "loop_poll_interval_ms") := by
  obtain ⟨hsection, hpoll, htimeout⟩ := putNumbers_spec (sourced file environment) millis secs
  have hinterpreter := get?_withNumbers file environment overrides millis secs
  set table := layered file environment (overrides.withNumbers (some millis) (some secs))
  have hothers : ∀ setting : Setting, setting.group ≠ "interpreter" →
      Setting.ask table setting = .ok (config.get setting) := by
    intro setting hne
    rw [← ofTable_eq_ok_iff.1 h setting]
    exact ask_congr (get?_withNumbers_of_ne file environment overrides millis secs hne)
  have hnumbers : ∀ setting : Setting, setting.group = "interpreter" →
      Setting.ask table setting =
        setting.answer (((sourced file environment).putNumbers millis secs).reads setting) := by
    intro setting hgroup
    rw [← ask_eq (hgroup ▸ hsection)]
    exact ask_congr (hgroup ▸ hinterpreter)
  have hsections : ∀ setting : Setting, ∃ group, sectionOf table setting.group = .ok group := by
    intro setting
    by_cases hgroup : setting.group = "interpreter"
    · rw [hgroup, sectionOf, hinterpreter]
      exact ⟨_, sectionOf_eq hsection⟩
    · exact (exists_of_bind_eq_ok (hothers setting hgroup)).imp fun _ => And.left
  rw [ofTable_of_sections hsections, hnumbers .pollMillis rfl, hnumbers .timeoutSecs rfl, hpoll,
    htimeout, hothers .missingParams (by decide), hothers .logFilter (by decide),
    hothers .logFormat (by decide), toWord?_signedWord hmillis, toWord?_signedWord hsecs]
  by_cases hm : millis < signedLimit
  · by_cases hs : secs < signedLimit
    · simp only [if_pos hm, if_pos hs]
      rfl
    · simp only [if_pos hm, if_neg hs]
      rfl
  · simp only [if_neg hm]
    rfl

/-- Both numbers are taken as they are, whatever the other layers say, as long as they are below
the limit of signed words. A number from there on is refused. -/
theorem load_numbers (files : Files) (environment : Environment) (overrides : Overrides)
    (config : Config)
    (h : load files environment (overrides.withNumbers none none) = .ok config)
    (millis secs : UInt64) :
    load files environment (overrides.withNumbers (some millis.toNat) (some secs.toNat)) =
        (if millis.toNat < signedLimit then
          if secs.toNat < signedLimit then
            .ok { config with pollMillis := millis.toNat, timeoutSecs := some secs.toNat }
          else .error ⟨requestedPath environment overrides, .unfitSetting "run_timeout_secs"⟩
        else .error ⟨requestedPath environment overrides, .unfitSetting "loop_poll_interval_ms"⟩) ∧
      ∀ loaded,
        load files environment (overrides.withNumbers (some millis.toNat) (some secs.toNat)) =
          .ok loaded →
        loaded.runSettings =
          { pollMillis := millis.toNat, timeoutMillis := some (1000 * secs.toNat),
            policy := config.missingParams } := by
  obtain ⟨file, hfile, htable⟩ := exists_entries_of_load h
  have hfile' : fileEntries files (requestedPath environment
      (overrides.withNumbers (some millis.toNat) (some secs.toNat))) = .ok file := hfile
  have hload := load_of_entries hfile'
  rw [ofTable_withNumbers htable millis.toNat_lt secs.toNat_lt] at hload
  rw [hload]
  by_cases hm : millis.toNat < signedLimit
  · by_cases hs : secs.toNat < signedLimit
    · simp only [if_pos hm, if_pos hs]
      refine ⟨rfl, fun loaded hloaded => ?_⟩
      cases hloaded
      rfl
    · simp only [if_pos hm, if_neg hs]
      exact ⟨rfl, nofun⟩
  · simp only [if_neg hm]
    exact ⟨rfl, nofun⟩

/-- The greatest number that arrives, and a time limit, above a file and variables that give these
and other settings. -/
theorem load_numbers_greatest :
    let files : Files := fun path =>
      if path = "robot.toml" then
        .ok "[interpreter]\nrun_timeout_secs = 5\n\n[template]\nmissing_params = 'strict'\n"
      else .error .notFound
    let environment : Environment :=
      [("ROBOT_INTERPRETER__LOOP_POLL_INTERVAL_MS", "25"), ("ROBOT_LOGGING__FILTER", "debug")]
    let config : Config :=
      { pollMillis := 25, timeoutSecs := some 5, missingParams := .strict, logFilter := "debug" }
    load files environment {} = .ok config ∧
      load files environment
          { pollMillis := some 9223372036854775807, timeoutSecs := some 30 } =
        .ok { config with pollMillis := 9223372036854775807, timeoutSecs := some 30 } := by
  intro files environment config
  have h : load files environment (Overrides.withNumbers {} none none) = .ok config := by
    decide +kernel
  exact ⟨h, (load_numbers files environment {} config h 9223372036854775807 30).1.trans
    (by decide +kernel)⟩

/-- The least unsigned word that is no signed word is refused where nothing else is said. -/
theorem load_numbers_refused :
    load (fun _ => .error .notFound) [] {} = .ok {} ∧
      ∀ loaded, load (fun _ => .error .notFound) []
        { pollMillis := some 9223372036854775808, timeoutSecs := some 0 } ≠ .ok loaded := by
  refine ⟨by decide +kernel, fun loaded hloaded => ?_⟩
  have h : load (fun _ => .error .notFound) []
      { pollMillis := some 9223372036854775808, timeoutSecs := some 0 } =
        .error ⟨none, .unfitSetting "loop_poll_interval_ms"⟩ := by
    decide +kernel
  exact absurd (h.symm.trans hloaded) nofun

end Config

end StepScript
