import Fieldmap.CommandLine.Help
import Fieldmap.Proofs.CharClass
import Fieldmap.Traced

/-!
# Options as they are given

Arguments spell one option in several ways: with a long name or a letter, with the value
in the same argument or in the next one, alone or behind other letters. This module says
which options a list of arguments gives, in order, whatever they are for. Reading the
arguments is then taking in one given option after the other.
-/

namespace Fieldmap.CommandLine

/-- One option, with its value if it has one. -/
inductive Given where
  | flag (flag : Flag)
  | setting (setting : Setting) (value : List Char)
  deriving DecidableEq, Repr

/-! ## Spellings -/

/-- What the letters behind a minus sign give. The last letter may be that of a setting
whose value is still to come. -/
inductive LettersGive : List Char → List Given → Option Setting → Prop where
  | nil : LettersGive [] [] none
  | flag {letter : Char} {rest : List Char} {flag : Flag} {givens : List Given}
      {pending : Option Setting} :
      OptionName.ofShort? letter = some (.flag flag) → LettersGive rest givens pending →
      LettersGive (letter :: rest) (.flag flag :: givens) pending
  | pending {letter : Char} {setting : Setting} :
      OptionName.ofShort? letter = some (.setting setting) →
      LettersGive [letter] [] (some setting)
  /-- What follows the letter of a setting is its value. -/
  | joined {letter first : Char} {rest : List Char} {setting : Setting} :
      OptionName.ofShort? letter = some (.setting setting) → first ≠ '=' →
      LettersGive (letter :: first :: rest) [.setting setting (first :: rest)] none
  | equals {letter : Char} {value : List Char} {setting : Setting} :
      OptionName.ofShort? letter = some (.setting setting) →
      LettersGive (letter :: '=' :: value) [.setting setting value] none

/-- What one argument gives, and the setting whose value is still to come. -/
inductive ArgumentGives : List Char → List Given → Option Setting → Prop where
  | letters {letter : Char} {rest : List Char} {givens : List Given}
      {pending : Option Setting} :
      LettersGive (letter :: rest) givens pending →
      ArgumentGives ('-' :: letter :: rest) givens pending
  | flag {name : String} {flag : Flag} :
      OptionName.ofLong? name = some (.flag flag) →
      ArgumentGives ('-' :: '-' :: name.toList) [.flag flag] none
  | pending {name : String} {setting : Setting} :
      OptionName.ofLong? name = some (.setting setting) →
      ArgumentGives ('-' :: '-' :: name.toList) [] (some setting)
  | equals {name : String} {setting : Setting} {value : List Char} :
      OptionName.ofLong? name = some (.setting setting) →
      ArgumentGives ('-' :: '-' :: name.toList ++ '=' :: value) [.setting setting value] none

/-- What a list of arguments gives, in order. A double minus sign may end the list. -/
inductive Gives : List String → List Given → Prop where
  | nil : Gives [] []
  | dashes : Gives ["--"] []
  | whole {argument : String} {rest : List String} {givens more : List Given} :
      ArgumentGives argument.toList givens none → Gives rest more →
      Gives (argument :: rest) (givens ++ more)
  | split {argument value : String} {rest : List String} {givens more : List Given}
      {setting : Setting} :
      ArgumentGives argument.toList givens (some setting) → Options.isValue value →
      Gives rest more →
      Gives (argument :: value :: rest) (givens ++ .setting setting value.toList :: more)

/-! ## Long names -/

/-- No long name is empty or holds an equals sign. -/
theorem OptionName.ofLong?_spelling {name : String} {option : OptionName}
    (named : ofLong? name = some option) : name ≠ "" ∧ '=' ∉ name.toList := by
  unfold ofLong? at named
  split at named
  case h_9 => cases named
  all_goals decide

/-- A long name is cut off in front of what an equals sign opens. -/
theorem OptionName.cut_name {name : String} {option : OptionName}
    (named : ofLong? name = some option) (rest : List Char)
    (stop : rest.head?.any (· != '=') = false) :
    (name.toList ++ rest).takeWhile (· != '=') = name.toList ∧
      (name.toList ++ rest).dropWhile (· != '=') = rest := by
  have inside : ∀ c ∈ name.toList, (c != '=') = true := by
    intro c member
    rw [bne_iff_ne]
    rintro rfl
    exact (ofLong?_spelling named).2 member
  exact ⟨takeWhile_append_stop inside stop, dropWhile_append_stop inside stop⟩

/-- A text is what stands in front of its first equals sign, and the rest. -/
theorem cut_at_equals (text : List Char) :
    text = (String.ofList (text.takeWhile (· != '='))).toList ++ text.dropWhile (· != '=') := by
  rw [String.toList_ofList, List.takeWhile_append_dropWhile]

/-! ## Reading -/

namespace Options

/-- The options with one given option more. -/
def give (options : Options) : Given → Except Refusal Options
  | .flag flag => options.raise flag
  | .setting setting value => options.set setting value

/-- The options behind some given ones. -/
def giveAll (options : Options) : List Given → Except Refusal Options
  | [] => .ok options
  | given :: rest => do
      (← options.give given).giveAll rest

theorem giveAll_cons (options : Options) (given : Given) (rest : List Given) :
    options.giveAll (given :: rest) = options.give given >>= fun next => next.giveAll rest :=
  rfl

theorem giveAll_append (options : Options) (front rest : List Given) :
    options.giveAll (front ++ rest) = options.giveAll front >>= fun next => next.giveAll rest := by
  induction front generalizing options with
  | nil => rfl
  | cons given front ih =>
      rw [List.cons_append, giveAll_cons, giveAll_cons]
      cases options.give given with
      | error refusal => rfl
      | ok next => exact ih next

end Options

/-- The letters of an argument are read as what they give. -/
theorem LettersGive.letters_eq {letters : List Char} {givens : List Given}
    {pending : Option Setting} (gives : LettersGive letters givens pending) (argument : String)
    (options : Options) :
    options.letters argument letters =
      (options.giveAll givens).map fun next => (next, pending) := by
  induction gives generalizing options with
  | nil => rfl
  | @flag letter rest flag givens pending short _ ih =>
      simp only [Options.letters, short, Options.giveAll_cons, Options.give]
      cases options.raise flag with
      | error refusal => rfl
      | ok next => exact ih next
  | pending short =>
      simp only [Options.letters, short]
      rfl
  | @joined letter first rest setting short different =>
      simp only [Options.letters, short, Options.giveAll_cons, Options.give]
      split
      · rename_i empty
        cases empty
      · rename_i value same
        exact absurd (List.cons.inj same).1 different
      · cases options.set setting (first :: rest) <;> rfl
  | @equals letter value setting short =>
      simp only [Options.letters, short, Options.giveAll_cons, Options.give]
      cases options.set setting value <;> rfl

/-- No option has a minus sign for its letter. -/
theorem LettersGive.ne_minus {letter : Char} {rest : List Char} {givens : List Given}
    {pending : Option Setting} (gives : LettersGive (letter :: rest) givens pending) :
    letter ≠ '-' := by
  rintro rfl
  cases gives <;> contradiction

/-- An argument is read as what it gives. -/
theorem ArgumentGives.argument_eq {argument : String} {givens : List Given}
    {pending : Option Setting} (gives : ArgumentGives argument.toList givens pending)
    (options : Options) :
    options.argument argument = (options.giveAll givens).map fun next => (next, pending) := by
  unfold Options.argument
  generalize argument.toList = text at gives
  cases gives with
  | @letters letter rest _ _ letters =>
      split
      · rename_i same
        exact absurd (List.cons.inj (List.cons.inj same).2).1 letters.ne_minus
      · rename_i same
        cases same
        exact letters.letters_eq argument options
      · rename_i other
        exact absurd rfl (other letter rest)
  | @flag name flag named =>
      have cut := OptionName.cut_name named [] rfl
      rw [List.append_nil] at cut
      simp only [Options.long, cut.1, cut.2, String.ofList_toList, named, Options.giveAll_cons,
        Options.give]
      cases options.raise flag <;> rfl
  | pending named =>
      have cut := OptionName.cut_name named [] rfl
      rw [List.append_nil] at cut
      simp only [Options.long, cut.1, cut.2, String.ofList_toList, named]
      rfl
  | @equals name setting value named =>
      have cut := OptionName.cut_name named ('=' :: value) rfl
      simp only [List.cons_append, Options.long, cut.1, cut.2, String.ofList_toList, named,
        Options.giveAll_cons, Options.give]
      cases options.set setting value <;> rfl

theorem ArgumentGives.ne_dashes {argument : String} {givens : List Given}
    {pending : Option Setting} (gives : ArgumentGives argument.toList givens pending) :
    argument ≠ "--" := by
  rintro rfl
  generalize textEq : "--".toList = text at gives
  cases gives with
  | letters letters =>
      cases textEq
      exact letters.ne_minus rfl
  | flag named | pending named =>
      have empty := (List.cons.inj (List.cons.inj textEq).2).2
      exact (OptionName.ofLong?_spelling named).1 (String.toList_eq_nil_iff.mp empty.symm)
  | equals =>
      have empty := (List.cons.inj (List.cons.inj textEq).2).2
      simp at empty

/-- Arguments are read as what they give, one given option after the other. -/
theorem Gives.readAll_eq {arguments : List String} {givens : List Given}
    (gives : Gives arguments givens) (options : Options) :
    options.readAll arguments = options.giveAll givens := by
  induction gives generalizing options with
  | nil => rfl
  | dashes => rfl
  | @whole argument rest givens more argumentGives _ ih =>
      rw [Options.giveAll_append]
      unfold Options.readAll
      simp only [argumentGives.ne_dashes, ↓reduceIte, argumentGives.argument_eq]
      cases options.giveAll givens with
      | error refusal => rfl
      | ok next => exact ih next
  | @split argument value rest givens more setting argumentGives isValue _ ih =>
      rw [Options.giveAll_append]
      unfold Options.readAll
      simp only [argumentGives.ne_dashes, ↓reduceIte, argumentGives.argument_eq]
      cases options.giveAll givens with
      | error refusal => rfl
      | ok next =>
          simp only [Except.map, isValue, ↓reduceIte]
          change _ = next.set setting value.toList >>= fun further => further.giveAll more
          cases next.set setting value.toList with
          | error refusal => rfl
          | ok further => exact ih further

/-! ## Arguments that are taken -/

theorem exists_lettersGive {argument : String} {options next : Options} {letters : List Char}
    {pending : Option Setting} (read : options.letters argument letters = .ok (next, pending)) :
    ∃ givens, LettersGive letters givens pending := by
  induction letters generalizing options with
  | nil =>
      cases read
      exact ⟨[], .nil⟩
  | cons letter rest ih =>
      unfold Options.letters at read
      split at read
      · cases read
      · rename_i flag short
        rcases exists_of_bind_eq_ok read with ⟨raised, _, read⟩
        rcases ih read with ⟨givens, gives⟩
        exact ⟨.flag flag :: givens, .flag short gives⟩
      · rename_i setting short
        split at read
        · cases read
          exact ⟨[], .pending short⟩
        · rename_i value
          rcases exists_of_bind_eq_ok read with ⟨set, _, read⟩
          cases read
          exact ⟨[.setting setting value], .equals short⟩
        · rename_i notEmpty notEquals
          rcases exists_of_bind_eq_ok read with ⟨set, _, read⟩
          cases read
          cases rest with
          | nil => exact absurd rfl notEmpty
          | cons first rest =>
              have different : first ≠ '=' := by
                rintro rfl
                exact notEquals rest rfl
              exact ⟨[.setting setting (first :: rest)], .joined short different⟩

theorem exists_argumentGives_of_long {argument : String} {options next : Options}
    {text : List Char} {pending : Option Setting}
    (read : options.long argument text = .ok (next, pending)) :
    ∃ givens, ArgumentGives ('-' :: '-' :: text) givens pending := by
  have stop := head?_dropWhile_stop (· != '=') text
  rw [cut_at_equals text]
  simp only [Options.long] at read
  generalize String.ofList (text.takeWhile (· != '=')) = name at read ⊢
  generalize text.dropWhile (· != '=') = rest at read stop ⊢
  split at read
  · cases read
  · rename_i flag named
    rcases exists_of_bind_eq_ok read with ⟨raised, _, read⟩
    cases read
    rw [List.append_nil]
    exact ⟨_, .flag named⟩
  · cases read
  · rename_i setting named
    cases read
    rw [List.append_nil]
    exact ⟨_, .pending named⟩
  · rename_i setting first value named
    rcases exists_of_bind_eq_ok read with ⟨set, _, read⟩
    cases read
    have equals : first = '=' := by simpa using stop
    subst equals
    exact ⟨_, .equals named⟩

theorem exists_argumentGives {argument : String} {options next : Options}
    {pending : Option Setting} (read : options.argument argument = .ok (next, pending)) :
    ∃ givens, ArgumentGives argument.toList givens pending := by
  unfold Options.argument at read
  split at read
  · rename_i text textEq
    rw [textEq]
    exact exists_argumentGives_of_long read
  · rename_i first rest _ textEq
    rw [textEq]
    rcases exists_lettersGive read with ⟨givens, gives⟩
    exact ⟨givens, .letters gives⟩
  · cases read

/-- All arguments that are taken give options. -/
theorem exists_gives_of_readAll {arguments : List String} {options result : Options}
    (read : options.readAll arguments = .ok result) : ∃ givens, Gives arguments givens := by
  fun_induction Options.readAll options arguments with
  | case1 => exact ⟨[], .nil⟩
  | case2 => exact ⟨[], .dashes⟩
  | case5 options argument rest _ next taken ih =>
      rcases exists_argumentGives taken with ⟨givens, gives⟩
      rcases ih read with ⟨more, restGives⟩
      exact ⟨givens ++ more, .whole gives restGives⟩
  | case8 options argument _ next setting taken value rest isValue further _ ih =>
      rcases exists_argumentGives taken with ⟨givens, gives⟩
      rcases ih read with ⟨more, restGives⟩
      exact ⟨givens ++ .setting setting value.toList :: more, .split gives isValue restGives⟩
  | _ => cases read

/-- What arguments give decides which options they are accepted for. -/
theorem Gives.ofArguments_eq {arguments : List String} {givens : List Given}
    (gives : Gives arguments givens) :
    Options.ofArguments arguments = Options.empty.giveAll givens >>= Options.check := by
  rw [Options.ofArguments, gives.readAll_eq]

theorem exists_gives_of_ofArguments {arguments : List String} {options : Options}
    (accepted : Options.ofArguments arguments = .ok options) :
    ∃ givens, Gives arguments givens := by
  rcases exists_of_bind_eq_ok accepted with ⟨result, read, _⟩
  exact exists_gives_of_readAll read

/-! ## Arguments for given options -/

theorem Flag.exists_ofLong? (flag : Flag) :
    ∃ name, flag.name = "--" ++ name ∧ OptionName.ofLong? name = some (.flag flag) := by
  cases flag with
  | specify => exact ⟨"specify", rfl, rfl⟩
  | dumpModel => exact ⟨"dump-model", rfl, rfl⟩
  | verbose => exact ⟨"verbose", rfl, rfl⟩
  | help => exact ⟨"help", rfl, rfl⟩

theorem Setting.exists_ofLong? (setting : Setting) :
    ∃ name, setting.name = "--" ++ name ∧ OptionName.ofLong? name = some (.setting setting) := by
  cases setting with
  | spec => exact ⟨"spec", rfl, rfl⟩
  | format => exact ⟨"format", rfl, rfl⟩
  | override => exact ⟨"override", rfl, rfl⟩
  | output => exact ⟨"output", rfl, rfl⟩

/-- The spelling of an option with its long name, in one argument. -/
def Given.argument : Given → String
  | .flag option => option.name
  | .setting option value => option.name ++ ("=" ++ String.ofList value)

theorem Given.argumentGives (given : Given) : ArgumentGives given.argument.toList [given] none := by
  cases given with
  | flag flag =>
      rcases flag.exists_ofLong? with ⟨name, nameEq, named⟩
      rw [argument, nameEq, String.toList_append]
      exact .flag named
  | setting setting value =>
      rcases setting.exists_ofLong? with ⟨name, nameEq, named⟩
      simp only [argument, nameEq, String.toList_append, String.toList_ofList]
      exact .equals named

/-- Every list of options is given by some arguments. -/
theorem gives_map_argument (givens : List Given) : Gives (givens.map Given.argument) givens := by
  induction givens with
  | nil => exact .nil
  | cons given rest ih => exact .whole given.argumentGives ih

end Fieldmap.CommandLine
