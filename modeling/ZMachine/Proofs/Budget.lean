import ZMachine.Proofs.Session

/-!
# Budgets

A run with a limit takes steps until the limit is reached or a step does not leave the story running, and the numbers it
reports are the numbers of these steps, although it tells them from the count of completed instructions, which a step that
fails does not change.  So a limit can be split in two, and a story that comes to an end comes to it under every limit that
lets it.

* `Session.Continues`, `Session.StopsAt`: what the first steps of a session come to;
* `Session.advance_of_continues`, `Session.advance_of_stopsAt`: going on with a budget;
* `Session.CountsUp`, `Session.countsUp_iff`: the same told from the count of completed instructions;
* `Session.run_of_continues`, `Session.run_of_stopsAt`: runs;
* `Session.run_iterates_steps`: runs are steps, one after the other.
-/

namespace ZMachine

/-- The end of a run, told with the instructions of a run before it. -/
def RunEnd.plus (earlier : Nat) : RunEnd → RunEnd
  | .quit executed => .quit (earlier + executed)
  | .limitReached executed => .limitReached (earlier + executed)

namespace Session

variable {s t : Session} {j n : Nat} {result : Except Failure Progress}

/-! ### The first step that does not go on -/

/-- The first steps of a session, as many as given, all leave the story running. -/
def Continues (s : Session) (n : Nat) : Prop :=
  ∀ k, k < n → (s.after k).step.1 = .ok .running

/-- The first step that does not leave the story running is the one with a number, counted from one, and comes to a
result. -/
def StopsAt (s : Session) (j : Nat) (result : Except Failure Progress) : Prop :=
  ∃ k, j = k + 1 ∧ s.Continues k ∧ (s.after k).step.1 = result ∧ result ≠ .ok .running

theorem after_step (s : Session) (n : Nat) : s.step.2.after n = s.after (n + 1) := by
  induction n with
  | zero => rfl
  | succ n ih =>
    show (s.step.2.after n).step.2 = (s.after (n + 1)).step.2
    rw [ih]

theorem after_add (s : Session) (a b : Nat) : (s.after a).after b = s.after (a + b) := by
  induction b with
  | zero => rfl
  | succ b ih =>
    show ((s.after a).after b).step.2 = (s.after (a + b)).step.2
    rw [ih]

theorem continues_zero (s : Session) : s.Continues 0 := nofun

theorem continues_succ : s.Continues (n + 1) ↔ s.Continues n ∧ (s.after n).step.1 = .ok .running := by
  constructor
  · intro h
    exact ⟨fun k hk => h k (by omega), h n (by omega)⟩
  · rintro ⟨h, hn⟩ k hk
    rcases Nat.lt_succ_iff_lt_or_eq.1 hk with hk | rfl
    · exact h k hk
    · exact hn

/-- The steps after the first are the steps of the session that the first leaves. -/
theorem continues_step : s.Continues (n + 1) ↔ s.step.1 = .ok .running ∧ s.step.2.Continues n := by
  constructor
  · intro h
    refine ⟨h 0 (by omega), fun k hk => ?_⟩
    rw [after_step]
    exact h (k + 1) (by omega)
  · rintro ⟨h0, h⟩ k hk
    rcases k with _ | k
    · exact h0
    · rw [← after_step]
      exact h k (by omega)

theorem Continues.append {a b : Nat} (h : s.Continues a) (h' : (s.after a).Continues b) : s.Continues (a + b) := by
  intro k hk
  by_cases hlt : k < a
  · exact h k hlt
  · have hk' := h' (k - a) (by omega)
    rw [after_add, show a + (k - a) = k by omega] at hk'
    exact hk'

theorem StopsAt.shift {a : Nat} (h : s.Continues a) (h' : (s.after a).StopsAt j result) : s.StopsAt (a + j) result := by
  obtain ⟨k, rfl, hk, hresult, hstop⟩ := h'
  rw [after_add] at hresult
  exact ⟨a + k, rfl, h.append hk, hresult, hstop⟩

/-- The first steps all go on, or one of them is the first that does not. -/
theorem continues_or_stopsAt (s : Session) (n : Nat) :
    s.Continues n ∨ ∃ j result, j ≤ n ∧ s.StopsAt j result := by
  induction n with
  | zero => exact .inl s.continues_zero
  | succ n ih =>
    rcases ih with h | ⟨j, result, hj, hstop⟩
    · by_cases hn : (s.after n).step.1 = .ok .running
      · exact .inl (continues_succ.2 ⟨h, hn⟩)
      · exact .inr ⟨n + 1, _, Nat.le_refl _, n, rfl, h, rfl, hn⟩
    · exact .inr ⟨j, result, Nat.le_succ_of_le hj, hstop⟩

theorem StopsAt.ne_running (h : s.StopsAt j result) : result ≠ .ok .running := by
  obtain ⟨k, -, -, -, hstop⟩ := h
  exact hstop

/-! ### Going on with a budget -/

/-- Why a sequence of steps ends, given what the last of them came to. -/
def stopOf : Except Failure Progress → Stop
  | .ok .running => .budgetSpent
  | .ok .quit => .quit
  | .error failure => .failed failure

theorem advance_of_continues (h : s.Continues n) : s.advance n = (.budgetSpent, s.after n) := by
  induction n generalizing s with
  | zero => rfl
  | succ n ih =>
    obtain ⟨h0, hn⟩ := continues_step.1 h
    have hstep : s.step = (.ok .running, s.step.2) := Prod.ext h0 rfl
    rw [advance, hstep]
    dsimp only
    rw [ih hn, after_step]

theorem advance_of_stopsAt (h : s.StopsAt j result) (hj : j ≤ n) : s.advance n = (stopOf result, s.after j) := by
  obtain ⟨k, rfl, hk, hresult, hstop⟩ := h
  induction k generalizing s n with
  | zero =>
    obtain ⟨n, rfl⟩ : ∃ n', n = n' + 1 := ⟨n - 1, by omega⟩
    have hstep : s.step = (result, s.after 1) := Prod.ext hresult rfl
    rw [advance, hstep]
    rcases result with failure | _ | _
    · rfl
    · exact absurd rfl hstop
    · rfl
  | succ k ih =>
    obtain ⟨n, rfl⟩ : ∃ n', n = n' + 1 := ⟨n - 1, by omega⟩
    obtain ⟨h0, hk⟩ := continues_step.1 hk
    have hstep : s.step = (.ok .running, s.step.2) := Prod.ext h0 rfl
    rw [advance, hstep]
    dsimp only
    rw [ih (n := n) (by omega) hk (by rw [after_step]; exact hresult), after_step]

/-- A step that succeeds counts as one. -/
theorem executed_of_ok {progress : Progress} (h : s.step.1 = .ok progress) :
    s.step.2.machine.executed = s.machine.executed + 1 := by
  obtain ⟨hresult, hmachine⟩ := s.machine_step
  have hcount := s.machine.executed_step
  rw [← hresult, ← hmachine, h] at hcount
  exact hcount

theorem executed_of_running (h : s.step = (.ok .running, t)) : t.machine.executed = s.machine.executed + 1 := by
  have hcount := executed_of_ok (show s.step.1 = .ok .running by rw [h])
  rw [h] at hcount
  exact hcount

/-- What is left of a budget can be told from the number of completed instructions, as only a step that goes on is followed
by another one. -/
theorem advance_eq {start limit : Nat} (h : start ≤ s.machine.executed) :
    s.advance (limit - (s.machine.executed - start)) =
      if limit ≤ s.machine.executed - start then (.budgetSpent, s)
      else match s.step with
        | (.ok .running, s') => s'.advance (limit - (s'.machine.executed - start))
        | (.ok .quit, s') => (.quit, s')
        | (.error failure, s') => (.failed failure, s') := by
  by_cases hspent : limit ≤ s.machine.executed - start
  · rw [if_pos hspent, Nat.sub_eq_zero_of_le hspent]
    rfl
  · obtain ⟨budget, hbudget⟩ : ∃ budget, limit - (s.machine.executed - start) = budget + 1 :=
      ⟨limit - (s.machine.executed - start) - 1, by omega⟩
    rw [if_neg hspent, hbudget, advance]
    rcases hstep : s.step with ⟨failure | _ | _, s'⟩
    · rfl
    · -- the step has counted as one, and this is what the budget has lost
      have hcount := executed_of_running hstep
      have hleft : limit - (s'.machine.executed - start) = budget := by omega
      dsimp only
      rw [hleft]
    · rfl

/-- Steps are taken as long as fewer instructions have been completed, since there were `start` of them, than a limit
allows.  The count is looked at before each step, and nothing else is kept. -/
inductive CountsUp (start limit : Nat) : Session → Stop → Session → Prop
  | spent {s : Session} (h : limit ≤ s.machine.executed - start) : CountsUp start limit s .budgetSpent s
  | quit {s t : Session} (h : s.machine.executed - start < limit) (hstep : s.step = (.ok .quit, t)) :
    CountsUp start limit s .quit t
  | failed {s t : Session} {failure : Failure} (h : s.machine.executed - start < limit)
    (hstep : s.step = (.error failure, t)) : CountsUp start limit s (.failed failure) t
  | running {s s' t : Session} {stop : Stop} (h : s.machine.executed - start < limit)
    (hstep : s.step = (.ok .running, s')) (rest : CountsUp start limit s' stop t) : CountsUp start limit s stop t

/-- **Spending a budget is counting up to a limit.** -/
theorem countsUp_iff {start limit : Nat} {stop : Stop} (h : start ≤ s.machine.executed) :
    CountsUp start limit s stop t ↔ s.advance (limit - (s.machine.executed - start)) = (stop, t) := by
  constructor
  · intro hcounts
    induction hcounts with
    | spent hspent => rw [advance_eq h, if_pos hspent]
    | quit hleft hstep | failed hleft hstep => rw [advance_eq h, if_neg (Nat.not_le.2 hleft), hstep]
    | running hleft hstep rest ih =>
      have hcount := executed_of_running hstep
      rw [advance_eq h, if_neg (Nat.not_le.2 hleft), hstep]
      exact ih (by omega)
  · -- on what is left of the limit: each step that goes on takes one off it
    intro hadvance
    induction hbudget : limit - (s.machine.executed - start) generalizing s with
    | zero =>
      rw [hbudget] at hadvance
      cases hadvance
      exact .spent (by omega)
    | succ budget ih =>
      have hleft : s.machine.executed - start < limit := by omega
      rw [advance_eq h, if_neg (Nat.not_le.2 hleft)] at hadvance
      rcases hstep : s.step with ⟨failure | _ | _, s'⟩
      · rw [hstep] at hadvance
        cases hadvance
        exact .failed hleft hstep
      · rw [hstep] at hadvance
        have hcount := executed_of_running hstep
        exact .running hleft hstep (ih (by omega) hadvance (by omega))
      · rw [hstep] at hadvance
        cases hadvance
        exact .quit hleft hstep

/-! ### Runs -/

/-- How long a session continues is up to its machine. -/
theorem continues_congr (h : s.machine = t.machine) : s.Continues n ↔ t.Continues n := by
  simp only [Continues, result_after, h]

theorem stopsAt_congr (h : s.machine = t.machine) : s.StopsAt j result ↔ t.StopsAt j result := by
  simp only [StopsAt, continues_congr h, result_after, h]

@[simp]
theorem unlogged_announce (s : Session) : s.announce.unlogged = s.unlogged := by
  simp [announce]

theorem machine_announce (s : Session) : s.announce.machine = s.machine := by
  simp [announce]

theorem executed_of_continues (h : s.Continues n) : (s.after n).machine.executed = s.machine.executed + n := by
  induction n with
  | zero => rfl
  | succ n ih =>
    obtain ⟨hn, hstep⟩ := continues_succ.1 h
    show (s.after n).step.2.machine.executed = _
    rw [executed_of_ok hstep, ih hn, Nat.add_assoc]

/-- A session that quits has counted the step that did. -/
theorem executed_of_quit (h : s.StopsAt j (.ok .quit)) : (s.after j).machine.executed = s.machine.executed + j := by
  obtain ⟨k, rfl, hk, hstep, -⟩ := h
  show (s.after k).step.2.machine.executed = _
  rw [executed_of_ok hstep, executed_of_continues hk, Nat.add_assoc]

/-- How a run ends at a step that does not leave the story running. -/
def endOf (j : Nat) : Except Failure Progress → Except Failure RunEnd
  | .ok .running => .ok (.limitReached j)
  | .ok .quit => .ok (.quit j)
  | .error failure => .error failure

theorem unlogged_report (start : Nat) (stop : Stop) (s : Session) : (s.report start stop).2.unlogged = s.unlogged := by
  cases stop with
  | budgetSpent | quit => exact s.unlogged_say _
  | failed failure => rfl

theorem run_eq (s : Session) (limit : Option Nat) :
    s.run limit = (s.announce.advance (limit.getD unlimited)).2.report s.machine.executed
      (s.announce.advance (limit.getD unlimited)).1 := rfl

theorem run_of_continues (limit : Option Nat) (h : s.Continues (limit.getD unlimited)) :
    (s.run limit).1 = .ok (.limitReached (limit.getD unlimited)) ∧
    (s.run limit).2.unlogged = (s.after (limit.getD unlimited)).unlogged := by
  rw [run_eq]
  generalize limit.getD unlimited = n at h ⊢
  have hannounced : s.announce.Continues n := (continues_congr s.machine_announce).2 h
  have hcount := executed_of_continues hannounced
  rw [machine_announce] at hcount
  rw [advance_of_continues hannounced]
  refine ⟨?_, ?_⟩
  · show Except.ok (RunEnd.limitReached ((s.announce.after n).machine.executed - s.machine.executed)) = _
    rw [hcount, Nat.add_sub_cancel_left]
  · rw [unlogged_report, unlogged_after, unlogged_announce, ← unlogged_after]

theorem run_of_stopsAt (limit : Option Nat) (h : s.StopsAt j result) (hj : j ≤ limit.getD unlimited) :
    s.run limit = (s.announce.after j).report s.machine.executed (stopOf result) := by
  rw [run_eq, advance_of_stopsAt ((stopsAt_congr s.machine_announce).2 h) hj]

theorem result_of_stopsAt (limit : Option Nat) (h : s.StopsAt j result) (hj : j ≤ limit.getD unlimited) :
    (s.run limit).1 = endOf j result ∧ (s.run limit).2.unlogged = (s.after j).unlogged := by
  rw [run_of_stopsAt limit h hj]
  refine ⟨?_, ?_⟩
  · rcases result with failure | _ | _
    · rfl
    · exact absurd rfl h.ne_running
    · have hcount := executed_of_quit ((stopsAt_congr s.machine_announce).2 h)
      rw [machine_announce] at hcount
      show Except.ok (RunEnd.quit ((s.announce.after j).machine.executed - s.machine.executed)) = _
      rw [hcount, Nat.add_sub_cancel_left]
      rfl
  · rw [unlogged_report, unlogged_after, unlogged_announce, ← unlogged_after]

/-- A run ends at its limit or with the step that stops the session. -/
theorem run_cases (s : Session) (limit : Option Nat) :
    (s.Continues (limit.getD unlimited) ∧ (s.run limit).1 = .ok (.limitReached (limit.getD unlimited)) ∧
      (s.run limit).2.unlogged = (s.after (limit.getD unlimited)).unlogged) ∨
    ∃ j result, j ≤ limit.getD unlimited ∧ s.StopsAt j result ∧ (s.run limit).1 = endOf j result ∧
      (s.run limit).2.unlogged = (s.after j).unlogged := by
  rcases s.continues_or_stopsAt (limit.getD unlimited) with h | ⟨j, result, hj, hstop⟩
  · exact .inl ⟨h, run_of_continues limit h⟩
  · exact .inr ⟨j, result, hj, hstop, result_of_stopsAt limit hstop hj⟩

/-! ### Runs are steps, one after the other -/

/-- Two runs in turn, the second if the first reaches its limit, and their numbers of instructions added. -/
def runInTurn (a b : Nat) (s : Session) : Except Failure RunEnd × Session :=
  match s.run (some a) with
  | (.ok (.limitReached executed), s') =>
    match s'.run (some b) with
    | (result, s'') => (result.map (RunEnd.plus executed), s'')
  | run => run

/-- What the runs of a session have to do with its steps.  The log is left aside, since runs announce themselves there and
report their end. -/
structure RunsAsSteps (s : Session) : Prop where
  /-- A run takes steps until the limit is reached or a step does not leave the story running, and no more. -/
  state : ∀ n, ∃ k, k ≤ n ∧ (k = n ∧ s.Continues n ∨ ∃ result, s.StopsAt k result) ∧
    (s.run (some n)).2.unlogged = (s.after k).unlogged
  /-- All that a run has to tell how far it has come is the count of completed instructions, now and when it began. -/
  counted : ∀ n run, s.run (some n) = run ↔
    ∃ stop t, CountsUp s.machine.executed n s.announce stop t ∧ run = t.report s.machine.executed stop
  /-- The limit is reached if as many steps go on. -/
  limitReached : ∀ n k, (s.run (some n)).1 = .ok (.limitReached k) ↔ k = n ∧ s.Continues n
  /-- A run quits with the step that quits, also if that is the last one within the limit, and counts it. -/
  quit : ∀ n j, (s.run (some n)).1 = .ok (.quit j) ↔ j ≤ n ∧ s.StopsAt j (.ok .quit)
  /-- A run fails with the step that fails, and as it does. -/
  failed : ∀ n failure, (s.run (some n)).1 = .error failure ↔ ∃ j, j ≤ n ∧ s.StopsAt j (.error failure)
  /-- A limit can be split in two. -/
  inTurn : ∀ a b, (s.run (some (a + b))).1 = (s.runInTurn a b).1 ∧
    (s.run (some (a + b))).2.unlogged = (s.runInTurn a b).2.unlogged
  /-- A story that comes to an end comes to the same end without a limit as with any limit that lets it. -/
  unlimited : ∀ j result, s.StopsAt j result → ∀ n, j ≤ n → n < UInt64.size → s.run none = s.run (some n)

theorem run_eq_iff_countsUp (s : Session) (n : Nat) (run : Except Failure RunEnd × Session) : s.run (some n) = run ↔
    ∃ stop t, CountsUp s.machine.executed n s.announce stop t ∧ run = t.report s.machine.executed stop := by
  have hbegun : s.announce.machine.executed = s.machine.executed := by rw [machine_announce]
  have hcounts : ∀ stop t, CountsUp s.machine.executed n s.announce stop t ↔ s.announce.advance n = (stop, t) := by
    intro stop t
    rw [countsUp_iff (Nat.le_of_eq hbegun.symm), hbegun, Nat.sub_self, Nat.sub_zero]
  rw [run_eq]
  constructor
  · rintro rfl
    exact ⟨_, _, (hcounts _ _).2 rfl, rfl⟩
  · rintro ⟨stop, t, hloop, rfl⟩
    have hadvance : s.announce.advance ((some n).getD Session.unlimited) = (stop, t) := (hcounts stop t).1 hloop
    rw [hadvance]

theorem run_eq_limitReached (s : Session) (n k : Nat) :
    (s.run (some n)).1 = .ok (.limitReached k) ↔ k = n ∧ s.Continues n := by
  constructor
  · intro h
    rcases s.run_cases (some n) with ⟨hn, hresult, -⟩ | ⟨j, result, -, hstop, hresult, -⟩
    · rw [h] at hresult
      cases hresult
      exact ⟨rfl, hn⟩
    · rw [h] at hresult
      rcases result with failure | _ | _
      · cases hresult
      · exact absurd rfl hstop.ne_running
      · cases hresult
  · rintro ⟨rfl, hn⟩
    exact (run_of_continues (some k) hn).1

theorem run_eq_quit (s : Session) (n j : Nat) :
    (s.run (some n)).1 = .ok (.quit j) ↔ j ≤ n ∧ s.StopsAt j (.ok .quit) := by
  constructor
  · intro h
    rcases s.run_cases (some n) with ⟨-, hresult, -⟩ | ⟨j', result, hj, hstop, hresult, -⟩
    · rw [h] at hresult
      cases hresult
    · rw [h] at hresult
      rcases result with failure | _ | _
      · cases hresult
      · cases hresult
      · cases hresult
        exact ⟨hj, hstop⟩
  · rintro ⟨hj, hstop⟩
    exact (result_of_stopsAt (some n) hstop hj).1

theorem run_eq_failed (s : Session) (n : Nat) (failure : Failure) :
    (s.run (some n)).1 = .error failure ↔ ∃ j, j ≤ n ∧ s.StopsAt j (.error failure) := by
  constructor
  · intro h
    rcases s.run_cases (some n) with ⟨-, hresult, -⟩ | ⟨j, result, hj, hstop, hresult, -⟩
    · rw [h] at hresult
      cases hresult
    · rw [h] at hresult
      rcases result with failure' | _ | _
      · cases hresult
        exact ⟨j, hj, hstop⟩
      · cases hresult
      · cases hresult
  · rintro ⟨j, hj, hstop⟩
    exact (result_of_stopsAt (some n) hstop hj).1

/-- If the first run reaches its limit, the second takes up the steps where the first has left them. -/
theorem run_add_of_continues {a : Nat} (h : s.Continues a) (b : Nat) :
    (s.run (some (a + b))).1 = ((s.run (some a)).2.run (some b)).1.map (RunEnd.plus a) ∧
    (s.run (some (a + b))).2.unlogged = ((s.run (some a)).2.run (some b)).2.unlogged := by
  have hs' : (s.run (some a)).2.unlogged = (s.after a).unlogged := (run_of_continues (some a) h).2
  generalize (s.run (some a)).2 = s' at hs' ⊢
  have hmachine : s'.machine = (s.after a).machine := by rw [← machine_unlogged, hs', machine_unlogged]
  have hafter : ∀ k, (s'.after k).unlogged = (s.after (a + k)).unlogged := by
    intro k
    rw [unlogged_after, hs', ← unlogged_after, after_add]
  rcases s'.run_cases (some b) with ⟨hb, hresult, hstate⟩ | ⟨j, result, hj, hstop, hresult, hstate⟩
  · have hab : s.Continues (a + b) := h.append ((continues_congr hmachine).1 hb)
    rw [hresult, hstate, hafter]
    exact run_of_continues (some (a + b)) hab
  · have hstop' : s.StopsAt (a + j) result := .shift h ((stopsAt_congr hmachine).1 hstop)
    obtain ⟨hresult', hstate'⟩ := result_of_stopsAt (some (a + b)) hstop' (by simpa using hj)
    rw [hresult, hstate, hafter, hresult', hstate']
    refine ⟨?_, rfl⟩
    rcases result with failure | _ | _ <;> rfl

theorem run_add (s : Session) (a b : Nat) :
    (s.run (some (a + b))).1 = (s.runInTurn a b).1 ∧
    (s.run (some (a + b))).2.unlogged = (s.runInTurn a b).2.unlogged := by
  rcases s.run_cases (some a) with ⟨ha, hresult, -⟩ | ⟨j, result, hj, hstop, hresult, -⟩
  · have hrun : s.run (some a) = (.ok (.limitReached a), (s.run (some a)).2) := Prod.ext hresult rfl
    rw [runInTurn, hrun]
    exact run_add_of_continues ha b
  · -- Both limits let the session stop, so the two runs are one and the same.
    have hj' : j ≤ a + b := Nat.le_add_right_of_le hj
    have hsame : s.run (some (a + b)) = s.run (some a) := by
      rw [run_of_stopsAt (some (a + b)) hstop hj', run_of_stopsAt (some a) hstop hj]
    have hrun : s.run (some a) = (endOf j result, (s.run (some a)).2) := Prod.ext hresult rfl
    have hturn : s.runInTurn a b = s.run (some a) := by
      rw [runInTurn, hrun]
      rcases result with failure | _ | _
      · rfl
      · exact absurd rfl hstop.ne_running
      · rfl
    rw [hsame, hturn]
    exact ⟨rfl, rfl⟩

/-- **A run is its steps, one after the other.**  It ends in the state and with the result of the first step that does not
leave the story running, or of the last step within the limit, and the count of completed instructions is all it takes to
tell which; so limits can be split, and a limit that is not reached makes no difference. -/
theorem run_iterates_steps (s : Session) : s.RunsAsSteps where
  state n := by
    rcases s.run_cases (some n) with ⟨hn, -, hstate⟩ | ⟨j, result, hj, hstop, -, hstate⟩
    · exact ⟨n, Nat.le_refl n, .inl ⟨rfl, hn⟩, hstate⟩
    · exact ⟨j, hj, .inr ⟨result, hstop⟩, hstate⟩
  counted := s.run_eq_iff_countsUp
  limitReached := s.run_eq_limitReached
  quit := s.run_eq_quit
  failed := s.run_eq_failed
  inTurn := s.run_add
  unlimited := by
    intro j result hstop n hj hn
    have hj' : j ≤ Session.unlimited := Nat.le_of_lt (Nat.lt_of_le_of_lt hj hn)
    rw [run_of_stopsAt none hstop hj', run_of_stopsAt (some n) hstop hj]

end Session

end ZMachine
