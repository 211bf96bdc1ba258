import CommandDispatch.Proofs.Dispatcher.Start
import CommandDispatch.Proofs.Dispatcher.Table
import CommandDispatch.Proofs.Text.ByteOrder
import CommandDispatch.Proofs.Text.LowerCase

/-!
# Names of commands, up to case

Three readings of a name have to agree: the table of a dispatcher compares lower-case forms in
Unicode, its question for help compares letters up to the case of ASCII, and a program searches
through its commands. The theorem `lookup_of_ofProgram` says that they do, for every name.
-/

namespace CommandDispatch.Dispatcher

open Arguments Command Naming Text

/-! ## Help -/

/-- The question for help is asked by the names with the lower-case form `help`. -/
theorem isHelp_iff {name : String} :
    sameUpToAsciiCase name helpName = true ↔ lower name = helpName :=
  sameUpToAsciiCase_iff_lower_eq (by decide)

variable {ι : Type} {d : Dispatcher ι} {p : Program} {entries : List Entry}

theorem IsCheckOf.find_eq_none_of_help (hc : IsCheckOf p entries) {name : String}
    (hHelp : lower name = helpName) : p.find name = none :=
  hc.find_eq_none_iff.mpr fun e he hKey => (hc.isChecked e he).key_ne (hKey.trans hHelp)

/-! ## Commands -/

variable [DecidableEq ι]

/-- The row of a dispatcher is that of a command of a program: the names that find the one are the
names that find the other, and each of them leads to the arm of the command. -/
structure Serves (d : Dispatcher ι) (p : Program) (r : Row ι) (c : Command) : Prop where
  key_eq : r.key = lower c.exposed
  exposed_eq : r.exposed = c.exposed
  description_eq : r.description = c.description
  target_eq : r.target = c.target
  find_iff : ∀ name, d.find name = some r.variant ↔ lower name = lower c.exposed
  program_find_iff : ∀ name, p.find name = some c ↔ lower name = lower c.exposed
  find_exposed : d.find c.exposed = some r.variant
  find_key : d.find r.key = some r.variant
  reaches : ∃ a ∈ d.arms, a.variant = r.variant ∧ a.target = c.target ∧
    ∀ name rest sliced, lower name = lower c.exposed → slice rest = .ok sliced →
      d.start (name :: rest) =
        Action.call <$> a.run d.startNames (d.startNames.scope name rest r.variant sliced)

/-- A name that finds a command in the program finds its row, which has the arm of the command. -/
theorem Realizes.exists_of_find (h : Realizes d entries) (hc : IsCheckOf p entries) {name : String}
    {c : Command} (hFind : p.find name = some c) :
    ∃ e ∈ entries, ∃ r : Row ι, ∃ a ∈ d.arms, e.command = c ∧ d.find name = some r.variant ∧
      a.Calls e ∧ d.arms.find? (fun a => a.variant = r.variant) = some a := by
  obtain ⟨e, he, hCommand, hKey⟩ := hc.find_eq_some_iff.mp hFind
  have hMem : e.key ∈ d.rows.map Row.key := h.keys_eq ▸ List.mem_map_of_mem he
  obtain ⟨r, hr, hRow⟩ := List.mem_map.mp hMem
  obtain ⟨f, hf, a, ha, hShows, hCalls, hArm⟩ := h.exists_arm hr
  have hSame : f = e := hc.eq_of_key_eq hf he (hShows.key_eq.symm.trans hRow)
  refine ⟨e, he, r, a, ha, hCommand, ?_, hSame ▸ hCalls, hArm⟩
  rw [h.find_eq_some_iff hc hr, hRow, hKey]

/-- A name that is found is not taken for the question for help, and leads to the arm. -/
theorem Realizes.start_of_find (h : Realizes d entries) (hc : IsCheckOf p entries) {r : Row ι}
    {a : Arm ι} (ha : d.arms.find? (fun a => a.variant = r.variant) = some a)
    {name : String} {rest : List String} {sliced : Sliced} (hFind : d.find name = some r.variant)
    (hSlice : slice rest = .ok sliced) :
    d.start (name :: rest) =
      Action.call <$> a.run d.startNames (d.startNames.scope name rest r.variant sliced) := by
  have hHelp : ¬ sameUpToAsciiCase name helpName = true := fun hHelp => by
    have hNone := (h.find_eq_none_iff hc).mpr (hc.find_eq_none_of_help (isHelp_iff.mp hHelp))
    rw [hFind] at hNone
    cases hNone
  rw [start_cons h.nodup_startNames, if_neg hHelp]
  simp only [hFind, hSlice, ha, orStuck_some, pure_bind]
  rfl

theorem Realizes.serves (h : Realizes d entries) (hc : IsCheckOf p entries) {r : Row ι} {e : Entry}
    (hr : r ∈ d.rows) (he : e ∈ entries) (hShows : r.Shows e) : Serves d p r e.command := by
  have hKey : r.key = lower e.command.exposed := hShows.key_eq.trans (hc.isChecked e he).key_eq
  have hFind : ∀ name, d.find name = some r.variant ↔ lower name = lower e.command.exposed :=
    fun name => hKey ▸ h.find_eq_some_iff hc hr
  obtain ⟨f, hf, a, ha, hShows', hCalls, hArm⟩ := h.exists_arm hr
  have hSame : f = e := hc.eq_of_key_eq hf he (hShows'.key_eq.symm.trans hShows.key_eq)
  subst hSame
  refine ⟨hKey, hShows.exposed_eq, hShows.description_eq, hShows.target_eq, hFind, fun name => ?_,
    (hFind _).mpr rfl, (hFind _).mpr (by rw [hKey, lower_lower]), a, ha,
    by simpa using List.find?_some hArm, hCalls.target_eq, fun name rest sliced hName hSlice =>
      h.start_of_find hc hArm ((hFind name).mpr hName) hSlice⟩
  rw [hc.find_eq_some_iff, ← (hc.isChecked f hf).key_eq]
  constructor
  · rintro ⟨g, hg, hCommand, hName⟩
    rw [(hc.isChecked f hf).key_eq, ← hCommand, ← (hc.isChecked g hg).key_eq, hName]
  · intro hName
    exact ⟨f, hf, rfl, hName.symm⟩

theorem Realizes.forall₂_serves (h : Realizes d entries) (hc : IsCheckOf p entries) :
    List.Forall₂ (Serves d p) d.rows (entries.map Entry.command) := by
  obtain ⟨hLength, hShows⟩ := List.forall₂_iff_get.mp h.rows
  rw [List.forall₂_map_right_iff, List.forall₂_iff_get]
  exact ⟨hLength, fun i hi hi' =>
    h.serves hc (List.get_mem d.rows _) (List.get_mem entries _) (hShows i hi hi')⟩

/-- The table of a generated dispatcher has one row for each command, in the strict order of the
bytes of their keys. A name finds a command in it if and only if the lower-case forms are the same,
which are the names that find the command in the program. The question for help hides no command. -/
theorem lookup_of_ofProgram {σ : Type} [Naming.Source σ] (p : Program) (a : Allocator σ) :
    (∀ text, (generateWith p a).1 = .ok text → ∃ d, (ofProgram p a).1 = .ok d ∧ d.text = text) ∧
    ∀ d, (ofProgram p a).1 = .ok d →
      (d.rows.map fun r => bytes r.key).Pairwise (· < ·) ∧
      (∃ commands : List Command, commands.Perm (p.toList.map (·.2)) ∧
        List.Forall₂ (Serves d p) d.rows commands) ∧
      ∀ name, (d.find name = none ↔ p.find name = none) ∧
        (sameUpToAsciiCase name helpName = true ↔ lower name = helpName) ∧
        (lower name = helpName → p.find name = none) := by
  refine ⟨fun text h => exists_of_generateWith h, fun d hDispatcher => ?_⟩
  obtain ⟨entries, hCheck, h⟩ := realizes_of_ofProgram hDispatcher
  have hc := isCheckOf_of_check hCheck
  refine ⟨?_, ⟨entries.map Entry.command, hc.perm, h.forall₂_serves hc⟩, fun name =>
    ⟨h.find_eq_none_iff hc, isHelp_iff, hc.find_eq_none_of_help⟩⟩
  have hSorted := hc.sorted
  rw [← h.keys_eq, List.pairwise_map] at hSorted
  rw [List.pairwise_map]
  exact hSorted.imp lt_iff_bytes_lt.mp

/-! ## A program with two commands -/

/-- The command `Say TEXT COUNT`, with two flags of which one cannot be given. -/
def sayCommand : Command where
  target := "crate::say"
  exposed := "Say"
  signature :=
    { arguments :=
        [ ⟨some "text", .readable .string, false⟩, ⟨some "Times", .readable .uint, true⟩,
          ⟨some "session", .foreign, true⟩, ⟨none, .readable .int, false⟩ ]
      returns := [⟨none, .error, false⟩] }
  description := ""

def askCommand : Command where
  target := "crate::ask"
  exposed := "ask"
  signature := ⟨[], []⟩
  description := "Asks"

/-- A capital letter comes before the small ones, so that the table has another order. -/
def twoCommands : Program :=
  (Program.insert { moduleName := "m" } sayCommand).insert askCommand

@[irreducible]
def sayPath : Source.Path :=
  (Source.parsePath "crate::say").get (by decide +kernel)

@[irreducible]
def askPath : Source.Path :=
  (Source.parsePath "crate::ask").get (by decide +kernel)

theorem parsePath_say : Source.parsePath "crate::say" = some sayPath := by
  rw [sayPath, Option.some_get]

theorem parsePath_ask : Source.parsePath "crate::ask" = some askPath := by
  rw [askPath, Option.some_get]

def sayEntry : Entry where
  key := "say"
  command := sayCommand
  path := sayPath
  arguments :=
    [ .positional .string "text", .flag .uint "times" "Times", .absent,
      .positional .int "argument 4" ]
  mayFail := true

def askEntry : Entry where
  key := "ask"
  command := askCommand
  path := askPath
  arguments := []
  mayFail := false

theorem isChecked_sayEntry : sayEntry.IsChecked where
  key_eq := by decide
  key_ne := by decide
  path_eq := parsePath_say
  arguments_eq := by decide
  errorReturns_le := by decide
  mayFail_eq := by decide

theorem isChecked_askEntry : askEntry.IsChecked where
  key_eq := by decide
  key_ne := by decide
  path_eq := parsePath_ask
  arguments_eq := rfl
  errorReturns_le := by decide
  mayFail_eq := by decide

theorem check_twoCommands : check twoCommands = .ok [askEntry, sayEntry] := by
  have hList : twoCommands.toList = [("Say", sayCommand), ("ask", askCommand)] := by
    decide +kernel
  have hName : ¬ (Source.parseName twoCommands.moduleName).isNone = true := by
    decide +kernel
  have hSay : checkCommand [] "Say" sayCommand = .ok sayEntry :=
    checkCommand_eq_ok_iff.mpr ⟨isChecked_sayEntry, rfl, rfl, by simp⟩
  have hAsk : checkCommand [sayEntry.key] "ask" askCommand = .ok askEntry :=
    checkCommand_eq_ok_iff.mpr ⟨isChecked_askEntry, rfl, rfl, by decide⟩
  have hAll : checkCommands [] twoCommands.toList = .ok [sayEntry, askEntry] := by
    rw [hList, checkCommands, hSay, ok_bind, checkCommands, hAsk, ok_bind, checkCommands, ok_bind]
    rfl
  have hSort :
      [sayEntry, askEntry].mergeSort (fun a b => a.key ≤ b.key) = [askEntry, sayEntry] := by
    have hOrder : ¬ sayEntry.key ≤ askEntry.key := by decide
    simp [List.mergeSort, List.MergeSort.Internal.splitInTwo, hOrder]
  rw [check, if_neg hName, hAll, ok_bind, hSort]
  rfl

/-- Numbers for seventeen different words. -/
def twoCommandsSource : Script :=
  ⟨[0, 1, 2, 3, 4, 5, 6, 7, 8, 9, 16, 17, 18, 19, 20, 21, 22]⟩

def twoCommandsDispatcher : Dispatcher String :=
  let d := ofEntries "m" [askEntry, sayEntry]
  d.withNames (twoCommandsSource.words d.exportedNames)

theorem words_twoCommands :
    twoCommandsSource.words (ofEntries "m" [askEntry, sayEntry]).exportedNames =
      ["A", "B", "c", "d", "e", "f", "g", "h", "i", "j", "ba", "bb", "bc", "bd", "be", "bf",
        "bg"] := by
  decide

theorem reservedNames_twoCommands :
    reservedNames [askEntry, sayEntry] = definedNames ++ ["crate", "crate"] := by
  have hAsk : firstWord askPath = ["crate"] := by
    rw [askPath]
    decide +kernel
  have hSay : firstWord sayPath = ["crate"] := by
    rw [sayPath]
    decide +kernel
  simp [reservedNames, askEntry, sayEntry, hAsk, hSay]

theorem isCallee_twoCommands : ∀ e ∈ [askEntry, sayEntry], e.path.isCallee = true := by
  have hAsk : askPath.isCallee = true := by
    rw [askPath]
    decide +kernel
  have hSay : sayPath.isCallee = true := by
    rw [sayPath]
    decide +kernel
  simp [askEntry, sayEntry, hAsk, hSay]

theorem ofProgram_twoCommands :
    (ofProgram twoCommands ⟨twoCommandsSource, ∅⟩).1 = .ok twoCommandsDispatcher := by
  have hFree : ∀ w ∈ ["A", "B", "c", "d", "e", "f", "g", "h", "i", "j", "ba", "bb", "bc", "bd",
      "be", "bf", "bg"], w ∉ reservedNames [askEntry, sayEntry] ∧ w ∉ keywords := by
    rw [reservedNames_twoCommands]
    decide
  have hProgram := ofProgram_script check_twoCommands (by decide +kernel) isCallee_twoCommands
    (by decide) words_twoCommands (by decide) hFree
  rw [← words_twoCommands] at hProgram
  exact hProgram

/-- The table has the other order, and every spelling of a name finds its command. -/
theorem lookup_twoCommands :
    twoCommandsDispatcher.rows.map Row.key = ["ask", "say"] ∧
      (twoCommandsDispatcher.rows.map fun r => bytes r.key).Pairwise (· < ·) ∧
      twoCommandsDispatcher.find "SAY" = some "B" ∧ twoCommandsDispatcher.find "HELP" = none := by
  obtain ⟨hSorted, ⟨commands, -, hServes⟩, hNames⟩ :=
    (lookup_of_ofProgram twoCommands ⟨twoCommandsSource, ∅⟩).2 _ ofProgram_twoCommands
  obtain ⟨hNone, -, hHelp⟩ := hNames "HELP"
  refine ⟨rfl, hSorted, ?_, hNone.mpr (hHelp (by decide))⟩
  have hRows : twoCommandsDispatcher.rows =
      [⟨"A", "ask", "ask", "Asks", "crate::ask"⟩, ⟨"B", "say", "Say", "", "crate::say"⟩] := rfl
  rw [hRows] at hServes
  cases hServes with
  | cons _ hRest =>
    cases hRest with
    | cons hSay _ =>
      apply (hSay.find_iff "SAY").mpr
      rw [← hSay.exposed_eq]
      decide

end CommandDispatch.Dispatcher
