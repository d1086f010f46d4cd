import Fieldmap.Proofs.Grammar.ItemOrder
import Fieldmap.Proofs.IndexedReader

/-!
# Rules for walks over tokens

A walk is followed against the reader that goes from phase to phase. At every place that it
comes to, some state of that reader stands for what is left to read, and what the walk
refuses is what the reader refuses. There is one rule for each way in which walks are made,
and each of them shows that no place without a token is asked for. The rule for loops also
counts their rounds: every round moves the place on.
-/

namespace Fieldmap.Spec

/-! ## What is left to read -/

/-- The records of a specification that reading has come to the end of. Where the tokens give
out before, the last of them is refused. -/
def State.conclude (state : State) (last : Token) : Except Error (List Record) :=
  match state.phase with
  | .finished => .ok state.records
  | phase => phase.refuse last

/-- What reading on from a place gets. -/
def State.resume (state : State) (tokens : List Token) (index : Nat) :
    Except Error (List Record) :=
  match tokens.getLast? with
  | none => .ok []
  | some last => do (← state.run (tokens.drop index)).conclude last

theorem resume_initial (tokens : List Token) :
    State.initial.resume tokens 0 = recordsOf tokens := by
  unfold State.resume recordsOf
  cases tokens.getLast? <;> rfl

/-- The token that is shown at a place, which is the last one behind the end. -/
def Shown (tokens : List Token) (index : Nat) (token : Token) : Prop :=
  tokens[min index (tokens.length - 1)]? = some token

/-- What is left to read from a place decides what is read altogether. -/
structure Reached (tokens : List Token) (state : State) (index : Nat) : Prop where
  filled : tokens ≠ []
  le_length : index ≤ tokens.length
  resume_eq : state.resume tokens index = recordsOf tokens

section

variable {tokens : List Token} {index : Nat} {token : Token} {state : State}
  {records : List Record} {phase : Phase}

theorem Shown.getElem? (shown : Shown tokens index token) (inside : index < tokens.length) :
    tokens[index]? = some token := by
  rwa [Shown, Nat.min_eq_left (by omega)] at shown

theorem State.resume_of_shown (shown : Shown tokens index token) (inside : index < tokens.length) :
    state.resume tokens index =
      state.step token >>= fun next => next.resume tokens (index + 1) := by
  have here : tokens[index] = token := List.getElem_of_getElem? (shown.getElem? inside) |>.2
  have last : tokens.getLast? = some (tokens.getLast (List.ne_nil_of_length_pos (by omega))) :=
    List.getLast?_eq_some_getLast _
  simp only [resume, last, List.drop_eq_getElem_cons inside, here, run_cons, bind_assoc]

theorem State.resume_of_end (shown : Shown tokens tokens.length token) (filled : tokens ≠ []) :
    state.resume tokens tokens.length = state.conclude token := by
  have positive := List.length_pos_iff.mpr filled
  rw [Shown, Nat.min_eq_right (by omega), ← List.getLast?_eq_getElem?] at shown
  simp only [resume, shown, List.drop_length, run_nil]
  rfl

/-- Outside of bodies the state follows the phase. -/
theorem State.step_eq_map (outside : ∀ draft, phase ≠ .body draft) :
    State.step ⟨records, phase⟩ token = (phase.step token).map (State.mk records) := by
  cases phase with
  | body draft => exact absurd rfl (outside draft)
  | _ => rfl

/-- A phase that awaits something definite is neither a body nor the end. -/
theorem Phase.within_of_refusal {what : Expectation} {found : String}
    (refusal : phase.refusal found = .expected what found) :
    (∀ draft, phase ≠ .body draft) ∧ phase ≠ .finished := by
  refine ⟨?_, ?_⟩
  · rintro draft rfl
    cases refusal
  · rintro rfl
    cases refusal

namespace Reached

theorem initial (filled : tokens ≠ []) : Reached tokens .initial 0 :=
  ⟨filled, Nat.zero_le _, resume_initial tokens⟩

theorem exists_shown (reached : Reached tokens state index) :
    ∃ token, Shown tokens index token := by
  have positive := List.length_pos_iff.mpr reached.filled
  have inside : min index (tokens.length - 1) < tokens.length := by omega
  exact ⟨_, List.getElem?_eq_getElem inside⟩

/-- A token that a state takes leads behind it. -/
theorem next (reached : Reached tokens state index) {next : State}
    (shown : Shown tokens index token) (inside : index < tokens.length)
    (step : state.step token = .ok next) : Reached tokens next (index + 1) := by
  refine ⟨reached.filled, inside, ?_⟩
  rw [← reached.resume_eq, State.resume_of_shown shown inside, step]
  rfl

/-- Behind the end of the specification nothing is left to read. -/
theorem eq_ok_of_finished (reached : Reached tokens ⟨records, .finished⟩ index) :
    recordsOf tokens = .ok records := by
  have last : tokens.getLast? = some (tokens.getLast reached.filled) :=
    List.getLast?_eq_some_getLast _
  rw [← reached.resume_eq]
  simp only [State.resume, last, State.run_finished]
  rfl

/-- What a state fails with at a token is what reading fails with. -/
theorem failed (reached : Reached tokens state index) {error : Error}
    (shown : Shown tokens index token) (inside : index < tokens.length)
    (step : state.step token = .error error) : recordsOf tokens = .error error := by
  rw [← reached.resume_eq, State.resume_of_shown shown inside, step]
  rfl

/-- A state that cannot use the token that is shown refuses it, also behind the end. -/
theorem refused (reached : Reached tokens state index) (shown : Shown tokens index token)
    (unfinished : state.phase ≠ .finished)
    (step : index < tokens.length → state.step token = state.phase.refuse token) :
    recordsOf tokens = state.phase.refuse token := by
  rcases Nat.lt_or_eq_of_le reached.le_length with inside | rfl
  · exact reached.failed shown inside (step inside)
  · rw [← reached.resume_eq, State.resume_of_end shown reached.filled, State.conclude]
    split
    · rename_i finished
      exact absurd finished unfinished
    · rfl

/-- Outside of bodies the phase alone moves on. -/
theorem advance (reached : Reached tokens ⟨records, phase⟩ index) {next : Phase}
    (outside : ∀ draft, phase ≠ .body draft) (shown : Shown tokens index token)
    (inside : index < tokens.length) (step : phase.step token = .ok next) :
    Reached tokens ⟨records, next⟩ (index + 1) := by
  apply reached.next shown inside
  rw [State.step_eq_map outside, step]
  rfl

theorem failed_of_phase (reached : Reached tokens ⟨records, phase⟩ index) {error : Error}
    (outside : ∀ draft, phase ≠ .body draft) (shown : Shown tokens index token)
    (inside : index < tokens.length) (step : phase.step token = .error error) :
    recordsOf tokens = .error error := by
  apply reached.failed shown inside
  rw [State.step_eq_map outside, step]
  rfl

theorem refused_of_phase (reached : Reached tokens ⟨records, phase⟩ index)
    (outside : ∀ draft, phase ≠ .body draft) (unfinished : phase ≠ .finished)
    (shown : Shown tokens index token)
    (step : index < tokens.length → phase.step token = phase.refuse token) :
    recordsOf tokens = phase.refuse token := by
  apply reached.refused shown unfinished
  intro inside
  rw [State.step_eq_map outside, step inside]
  rfl

/-- Two states that do alike with the token that is shown are as good as one another. -/
theorem of_step_eq (reached : Reached tokens state index) {other : State}
    (shown : Shown tokens index token)
    (step : index < tokens.length → other.step token = state.step token)
    (conclude : other.conclude token = state.conclude token) : Reached tokens other index := by
  refine ⟨reached.filled, reached.le_length, ?_⟩
  rw [← reached.resume_eq]
  rcases Nat.lt_or_eq_of_le reached.le_length with inside | rfl
  · rw [State.resume_of_shown shown inside, State.resume_of_shown shown inside, step inside]
  · rw [State.resume_of_end shown reached.filled, State.resume_of_end shown reached.filled,
      conclude]

end Reached

end

/-! ## Walks -/

/-- What a walk from a place leads to: a value and a place, or else a refusal that is the
one of the reader. It never asks for a token where there is none, and all its loops end. -/
def Walk.Leads {α : Type} (walk : Walk α) (tokens : List Token) (index : Nat)
    (post : α → Nat → Prop) : Prop :=
  match (walk.run tokens).run index with
  | .ok (value, next) => post value next
  | .error (.refused error) => recordsOf tokens = .error error
  | .error _ => False

namespace Walk

variable {α β σ : Type} {tokens : List Token} {index : Nat} {token : Token}
  {test : Token → Bool} {what : Expectation} {post : α → Nat → Prop}

theorem leads_pure {value : α} (holds : post value index) :
    (pure value : Walk α).Leads tokens index post := holds

theorem leads_bind {first : Walk β} {next : β → Walk α} {middle : β → Nat → Prop}
    (firstLeads : first.Leads tokens index middle)
    (nextLeads : ∀ value place, middle value place → (next value).Leads tokens place post) :
    (first >>= next).Leads tokens index post := by
  unfold Leads at firstLeads ⊢
  rw [ReaderT.run_bind, StateT.run_bind]
  revert firstLeads
  rcases (first.run tokens).run index with (error | _ | _) | ⟨value, place⟩
  · exact id
  · exact id
  · exact id
  · exact nextLeads value place

theorem Leads.mono {walk : Walk α} {other : α → Nat → Prop} (leads : walk.Leads tokens index post)
    (implies : ∀ value place, post value place → other value place) :
    walk.Leads tokens index other := by
  unfold Leads at leads ⊢
  split at leads
  · exact implies _ _ leads
  · exact leads
  · exact leads

/-! ### The current token -/

theorem run_tokenAt (shown : Shown tokens index token) (place : Nat) :
    ((tokenAt index).run tokens).run place = .ok (token, place) := by
  have looked : ((tokenAt index).run tokens).run place =
      ((found tokens[min index (tokens.length - 1)]?).run tokens).run place := rfl
  rw [looked, shown]
  rfl

/-- A walk goes on behind a part whose result is known. -/
theorem leads_of_run {first : Walk β} {next : β → Walk α} {value : β} {place : Nat}
    (run : (first.run tokens).run index = .ok (value, place))
    (rest : (next value).Leads tokens place post) : (first >>= next).Leads tokens index post := by
  unfold Leads
  rw [ReaderT.run_bind, StateT.run_bind, run]
  exact rest

theorem leads_current {next : Token → Walk α} (shown : Shown tokens index token)
    (rest : (next token).Leads tokens index post) :
    (current >>= next).Leads tokens index post :=
  leads_of_run (run_tokenAt shown index) rest

theorem run_eat (test : Token → Bool) (shown : Shown tokens index token) :
    ((eat test).run tokens).run index =
      if index < tokens.length ∧ test token = true then .ok (true, index + 1)
      else .ok (false, index) := by
  have run : ((eat test).run tokens).run index =
      ((if index < tokens.length then do
          if test (← current) then do
            set (index + 1)
            return true
          else return false
        else return false : Walk Bool).run tokens).run index := rfl
  rw [run]
  by_cases inside : index < tokens.length
  · have current : (current.run tokens).run index = .ok (token, index) := run_tokenAt shown index
    rw [if_pos inside, ReaderT.run_bind, StateT.run_bind, current]
    by_cases passed : test token = true
    · rw [if_pos ⟨inside, passed⟩]
      simp only [bind, Except.bind, passed]
      rfl
    · rw [if_neg (fun both => passed both.2)]
      simp only [bind, Except.bind, passed]
      rfl
  · rw [if_neg inside, if_neg (fun both => inside both.1)]
    rfl

theorem leads_eat {next : Bool → Walk α} (shown : Shown tokens index token)
    (eaten : index < tokens.length → test token = true →
      (next true).Leads tokens (index + 1) post)
    (left : (index < tokens.length → test token = false) → (next false).Leads tokens index post) :
    (eat test >>= next).Leads tokens index post := by
  have run := run_eat test shown
  by_cases both : index < tokens.length ∧ test token = true
  · rw [if_pos both] at run
    exact leads_of_run run (eaten both.1 both.2)
  · rw [if_neg both] at run
    apply leads_of_run run
    exact left fun inside => Bool.eq_false_iff.mpr fun passed => both ⟨inside, passed⟩

theorem leads_unexpected (shown : Shown tokens index token)
    (refused : recordsOf tokens = .error ⟨token.position, .unexpected token.text⟩) :
    (unexpected : Walk α).Leads tokens index post :=
  leads_current shown refused

/-! ### What a phase asks for -/

section

variable {records : List Record} {phase : Phase}

/-- What is expected can only be missed where the reader's phase refuses the token. -/
theorem leads_expect (reached : Reached tokens ⟨records, phase⟩ index)
    (shown : Shown tokens index token)
    (refusal : phase.refusal token.text = .expected what token.text)
    (other : index < tokens.length → test token = false → phase.step token = phase.refuse token) :
    (expect test what).Leads tokens index fun _ place =>
      place = index + 1 ∧ index < tokens.length ∧ test token = true := by
  obtain ⟨outside, unfinished⟩ := Phase.within_of_refusal refusal
  apply leads_eat shown
  · intro inside passed
    exact leads_pure ⟨rfl, inside, passed⟩
  · intro left
    apply leads_current shown
    change recordsOf tokens = .error ⟨token.position, .expected what token.text⟩
    rw [← refusal]
    exact reached.refused_of_phase outside unfinished shown fun inside => other inside (left inside)

theorem leads_take (reached : Reached tokens ⟨records, phase⟩ index)
    (shown : Shown tokens index token)
    (refusal : phase.refusal token.text = .expected what token.text)
    (other : index < tokens.length → test token = false → phase.step token = phase.refuse token) :
    (take test what).Leads tokens index fun taken place =>
      token = taken ∧ place = index + 1 ∧ index < tokens.length ∧ test token = true := by
  apply leads_current shown
  apply leads_bind (leads_expect reached shown refusal other)
  intro _ place moved
  exact leads_pure ⟨rfl, moved⟩

/-- A result that decides how a state takes the token that is shown. -/
theorem leads_check {state : State} {result : Except Error α} {next : α → State}
    (reached : Reached tokens state index) (shown : Shown tokens index token)
    (inside : index < tokens.length)
    (step : state.step token = result >>= fun value => .ok (next value)) :
    (check result).Leads tokens (index + 1) fun value place =>
      place = index + 1 ∧ Reached tokens (next value) place := by
  cases result with
  | error error => exact reached.failed shown inside step
  | ok value => exact ⟨rfl, reached.next shown inside step⟩

/-- The text of a quoted token, where the phase goes on with it. -/
theorem leads_literal {next : String → Phase} (reached : Reached tokens ⟨records, phase⟩ index)
    (outside : ∀ draft, phase ≠ .body draft) (shown : Shown tokens index token)
    (inside : index < tokens.length)
    (step : phase.step token = literal token >>= fun text => .ok (next text)) :
    (check (literal token)).Leads tokens (index + 1) fun text place =>
      place = index + 1 ∧ Reached tokens ⟨records, next text⟩ place := by
  apply leads_check reached shown inside
  rw [State.step_eq_map outside, step]
  cases literal token <;> rfl

end

/-! ### From phase to phase -/

/-- A walk leads from one phase of the reader to another one, wherever it begins. -/
def Passes (walk : Walk α) (tokens : List Token) (records : List Record) (phase : Phase)
    (next : α → Phase) : Prop :=
  ∀ index, Reached tokens ⟨records, phase⟩ index → walk.Leads tokens index fun value place =>
    index ≤ place ∧ Reached tokens ⟨records, next value⟩ place

section

variable {records : List Record} {phase : Phase}

theorem passes_pure {next : α → Phase} (value : α) :
    (pure value : Walk α).Passes tokens records (next value) next :=
  fun _ reached => ⟨Nat.le_refl _, reached⟩

theorem Passes.bind {first : Walk β} {further : β → Walk α} {middle : β → Phase}
    {next : α → Phase} (firstPasses : first.Passes tokens records phase middle)
    (furtherPasses : ∀ value, (further value).Passes tokens records (middle value) next) :
    (first >>= further).Passes tokens records phase next := by
  intro index reached
  apply leads_bind (firstPasses index reached)
  rintro value between ⟨le, middleReached⟩
  apply (furtherPasses value between middleReached).mono
  rintro _ place ⟨le', nextReached⟩
  exact ⟨Nat.le_trans le le', nextReached⟩

/-- A phase that awaits one kind of token passes on behind it. -/
theorem take_passes {next : Token → Phase}
    (refusal : ∀ found, phase.refusal found = .expected what found)
    (step : ∀ token, phase.step token = if test token then .ok (next token)
      else phase.refuse token) :
    (take test what).Passes tokens records phase next := by
  intro index reached
  obtain ⟨token, shown⟩ := reached.exists_shown
  have outside := (Phase.within_of_refusal (refusal token.text)).1
  apply (leads_take reached shown (refusal _) fun _ failed => by simp [step, failed]).mono
  rintro _ _ ⟨rfl, rfl, inside, passed⟩
  exact ⟨Nat.le_succ index, reached.advance outside shown inside (by simp [step, passed])⟩

theorem expect_passes {next : Phase}
    (refusal : ∀ found, phase.refusal found = .expected what found)
    (step : ∀ token, phase.step token = if test token then .ok next else phase.refuse token) :
    (expect test what).Passes tokens records phase fun _ => next := by
  intro index reached
  obtain ⟨token, shown⟩ := reached.exists_shown
  have outside := (Phase.within_of_refusal (refusal token.text)).1
  apply (leads_expect reached shown (refusal _) fun _ failed => by simp [step, failed]).mono
  rintro _ _ ⟨rfl, inside, passed⟩
  exact ⟨Nat.le_succ index, reached.advance outside shown inside (by simp [step, passed])⟩

end

/-! ### Loops -/

/-- What a round of a loop leads to: a later place from which the loop goes on or, if the
round was the last, a later place behind the loop. -/
def RoundEnds (tokens : List Token) (within : σ → State) (behind : σ → Nat → Prop) (index : Nat) :
    ForInStep σ → Nat → Prop
  | .yield next, place => index < place ∧ Reached tokens (within next) place
  | .done last, place => index < place ∧ behind last place

/-- Every round moves the place on, so there are at most as many rounds as tokens left. -/
theorem leads_untilEaten {round : σ → Walk (ForInStep σ)} {within : σ → State}
    {behind : σ → Nat → Prop}
    (leave : ∀ value index token, Reached tokens (within value) index →
      Shown tokens index token → index < tokens.length → test token = true →
      behind value (index + 1))
    (again : ∀ value index token, Reached tokens (within value) index →
      Shown tokens index token → (index < tokens.length → test token = false) →
      (round value).Leads tokens index (RoundEnds tokens within behind index))
    {rounds : Nat} {value : σ} (reached : Reached tokens (within value) index)
    (enough : tokens.length < rounds + index) :
    (untilEaten test round rounds value).Leads tokens index fun last place =>
      index < place ∧ behind last place := by
  induction rounds generalizing value index with
  | zero =>
      -- The place would stand further than behind the last token.
      have bound := reached.le_length
      omega
  | succ rounds ih =>
      obtain ⟨token, shown⟩ := reached.exists_shown
      apply leads_eat shown
      · intro inside passed
        have left := leave value index token reached shown inside passed
        exact leads_pure ⟨Nat.lt_succ_self index, left⟩
      · intro left
        apply leads_bind (again value index token reached shown left)
        rintro (last | next) place ended
        · exact leads_pure ended
        · rcases ended with ⟨lt, nextReached⟩
          apply (ih nextReached (by omega)).mono
          rintro last final ⟨lt', isBehind⟩
          exact ⟨Nat.lt_trans lt lt', isBehind⟩

/-- A loop within a record passes from the phase in front of it to the one behind it. -/
theorem untilEaten_passes {records : List Record} {round : σ → Walk (ForInStep σ)}
    {within behind : σ → Phase} {rounds : Nat} (enough : tokens.length < rounds)
    (outside : ∀ value draft, within value ≠ .body draft)
    (leave : ∀ value token, test token = true →
      (within value).step token = .ok (behind value))
    (again : ∀ value index token, Reached tokens ⟨records, within value⟩ index →
      Shown tokens index token → (index < tokens.length → test token = false) →
      (round value).Leads tokens index (RoundEnds tokens (fun value => ⟨records, within value⟩)
        (fun value => Reached tokens ⟨records, behind value⟩) index)) (value : σ) :
    (untilEaten test round rounds value).Passes tokens records (within value) behind := by
  intro index reached
  have loop := leads_untilEaten
    (fun value _ token reached shown inside passed =>
      reached.advance (outside value) shown inside (leave value token passed))
    again reached (Nat.lt_of_lt_of_le enough (Nat.le_add_right rounds index))
  apply loop.mono
  rintro last place ⟨lt, isBehind⟩
  exact ⟨Nat.le_of_lt lt, isBehind⟩

end Walk

end Fieldmap.Spec
