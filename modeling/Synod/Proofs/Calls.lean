import Synod.Proofs.Faithful

/-! A proposer on its own: it is told to start rounds, given values and handed messages, in any
order. Whatever it is told, it stays faithful to what it has done. -/

namespace Synod

variable {V : Type}

namespace Proposer

/-! ### A promise while a round is in flight -/

section

variable {q : Proposer V} {n b : Ballot} {own : V} {reports : List (Report V)} {sender : NodeId}
  {acc : Option (Vote V)}
  (hcurrent : q.current = some n) (hphase : q.phase = .preparing own reports)
include hcurrent hphase

theorem onPromise_of_lt (hlt : n < b) (sender : NodeId) (acc : Option (Vote V)) :
    q.onPromise sender b acc =
      ({ q with phase := .idle, highestSeen := some (Ballot.later q.highestSeen b) },
        [.note (.roundAbandoned sender n b)]) := by
  simp [onPromise, hcurrent, hphase, hlt]

theorem onPromise_of_few (hfew : (addReport reports ⟨sender, acc⟩).length < q.quorum) :
    q.onPromise sender n acc =
      ({ q with phase := .preparing own (addReport reports ⟨sender, acc⟩) },
        [.note (.promiseRecorded n (addReport reports ⟨sender, acc⟩).length)]) := by
  simp [onPromise, hcurrent, hphase, hfew]

theorem onPromise_of_many (hmany : q.quorum ≤ (addReport reports ⟨sender, acc⟩).length) :
    q.onPromise sender n acc =
      ((q.conclude n own (addReport reports ⟨sender, acc⟩)).1,
        .note (.promiseRecorded n (addReport reports ⟨sender, acc⟩).length) ::
          (q.conclude n own (addReport reports ⟨sender, acc⟩)).2) := by
  simp [onPromise, hcurrent, hphase, not_lt.mpr hmany]

end

/-! ### Calls -/

inductive Call (V : Type) where
  | start
  | setValue (value : V)
  | handle (sender : NodeId) (body : Body V)

variable [Value V]

/-- A proposer after a call, and what it does. Where the handling of a message faults, it does
nothing and stays as it was. -/
def call (self : NodeId) (p : Proposer V) : Call V → Proposer V × List (Effect V)
  | .start => ((p.start self).1, (p.start self).2.1)
  | .setValue value => p.setValue value
  | .handle sender body => (p.handle sender body).toOption.getD (p, [])

def callAll (self : NodeId) (p : Proposer V) (calls : List (Call V)) : Proposer V :=
  calls.foldl (fun p c => (p.call self c).1) p

/-- All that a proposer does because of calls, in order. -/
def output (self : NodeId) (p : Proposer V) : List (Call V) → List (Effect V)
  | [] => []
  | c :: calls => (p.call self c).2 ++ output self (p.call self c).1 calls

@[simp] theorem callAll_nil (self : NodeId) (p : Proposer V) : p.callAll self [] = p := rfl

theorem callAll_cons (self : NodeId) (p : Proposer V) (c : Call V) (calls : List (Call V)) :
    p.callAll self (c :: calls) = (p.call self c).1.callAll self calls := rfl

theorem callAll_append (self : NodeId) (p : Proposer V) (calls later : List (Call V)) :
    p.callAll self (calls ++ later) = (p.callAll self calls).callAll self later :=
  List.foldl_append

theorem callAll_concat (self : NodeId) (p : Proposer V) (calls : List (Call V)) (c : Call V) :
    p.callAll self (calls ++ [c]) = ((p.callAll self calls).call self c).1 :=
  callAll_append self p calls [c]

theorem output_concat (self : NodeId) (p : Proposer V) (calls : List (Call V)) (c : Call V) :
    p.output self (calls ++ [c]) =
      p.output self calls ++ ((p.callAll self calls).call self c).2 := by
  induction calls generalizing p with
  | nil => simp [output]
  | cons d calls ih => simp [output, ih, callAll_cons]

theorem call_promise (self : NodeId) (p : Proposer V) (sender : NodeId) (b : Ballot)
    (acc : Option (Vote V)) :
    p.call self (.handle sender (.promise b acc)) = p.onPromise sender b acc := rfl

/-! ### What a call comes to -/

/-- The rules for calls. -/
inductive Called (self : NodeId) (p : Proposer V) :
    Call V → Proposer V → List (Effect V) → Prop where
  | started {p' b effects} (h : p.start self = (p', effects, .started b)) :
      Called self p .start p' effects
  | refused (h : p.isProposing = true) :
      Called self p .start p [.note (.alreadyProposing p.current)]
  | failed {r fault} (h : p.nextRound = (r, some fault)) :
      Called self p .start { p with round := r } []
  | set (value : V) : Called self p (.setValue value) { p with value } [.note (.valueUpdated value)]
  | handled {sender body p' effects} (h : p.Reaction sender body p' effects) :
      Called self p (.handle sender body) p' effects
  /-- Only a confirmation is compared, and only that can fail. -/
  | faulted {sender vote} : Called self p (.handle sender (.accepted vote)) p []

theorem start_called (self : NodeId) (p : Proposer V) :
    Called self p .start (p.start self).1 (p.start self).2.1 := by
  rcases hstart : p.start self with ⟨p', effects, _ | b | fault⟩
  · have hp : p.isProposing = true := by
      by_contra hidle
      exact start_ne_refused (by simpa using hidle) (congrArg (·.2.2) hstart)
    obtain ⟨rfl, rfl⟩ : p = p' ∧ [.note (.alreadyProposing p.current)] = effects := by
      simpa [start, hp] using hstart
    exact .refused hp
  · exact .started hstart
  · obtain ⟨r, hnext, rfl, rfl⟩ := start_eq_failed hstart
    exact .failed hnext

theorem handle_called (self : NodeId) (p : Proposer V) (sender : NodeId) (body : Body V) :
    Called self p (.handle sender body) (p.call self (.handle sender body)).1
      (p.call self (.handle sender body)).2 := by
  cases hh : p.handle sender body with
  | ok out =>
    have hcall : p.call self (.handle sender body) = out := by simp [call, hh, Except.toOption]
    exact hcall ▸ .handled (handle_reaction hh)
  | error fault =>
    have hcall : p.call self (.handle sender body) = (p, []) := by
      simp [call, hh, Except.toOption]
    cases body with
    | accepted vote => exact hcall ▸ .faulted
    | _ => simp [handle] at hh

theorem call_called (self : NodeId) (p : Proposer V) (c : Call V) :
    Called self p c (p.call self c).1 (p.call self c).2 := by
  cases c with
  | start => exact start_called self p
  | setValue value => exact .set value
  | handle sender body => exact handle_called self p sender body

/-! ### What calls keep -/

variable {self : NodeId} {p p' : Proposer V} {c : Call V} {effects : List (Effect V)}
  {rs : List (Remark V)}

theorem Called.faithful (h : p.Called self c p' effects) (hp : p.Faithful self rs) :
    p'.Faithful self (rs ++ Effect.steps effects) := by
  cases h with
  | started hstart => exact hp.start hstart
  | refused hproposing => simpa [Effect.steps, Remark.isStep] using hp
  | failed hnext =>
    rw [Effect.steps_nil, List.append_nil]
    exact hp.setRound (by simpa [hnext] using p.round_le_nextRound)
  | set value => simpa [Effect.steps, Remark.isStep] using hp.setValue value
  | handled hreaction => exact hreaction.faithful hp
  | faulted => simpa using hp

/-- What a proposer has done through calls joins its history. -/
theorem Faithful.callAll (hp : p.Faithful self rs) (calls : List (Call V)) :
    (p.callAll self calls).Faithful self (rs ++ Effect.steps (p.output self calls)) := by
  induction calls generalizing p rs with
  | nil => simpa [output] using hp
  | cons c calls ih =>
    have hnext := ih ((call_called self p c).faithful hp)
    rwa [List.append_assoc, ← Effect.steps_append] at hnext

theorem Called.acceptors_eq (h : p.Called self c p' effects) : p'.acceptors = p.acceptors := by
  cases h with
  | started hstart => rw [(start_eq_started hstart).2.2.2.1]
  | handled hreaction => cases hreaction <;> simp [conclude_fst]
  | _ => rfl

theorem acceptors_callAll (self : NodeId) (p : Proposer V) (calls : List (Call V)) :
    (p.callAll self calls).acceptors = p.acceptors := by
  induction calls generalizing p with
  | nil => rfl
  | cons c calls ih => rw [callAll_cons, ih, (call_called self p c).acceptors_eq]

omit [Value V] in
/-- The last round of a proposer is its own, and not above the number that it counts on from. -/
theorem Faithful.current_le (hp : p.Faithful self rs) {b : Ballot} (hb : p.current = some b) :
    b.proposer = self ∧ b.round.toNat ≤ p.round.toNat := by
  obtain ⟨value, hstarted⟩ := hp.current hb
  obtain ⟨hself, hle, -⟩ := hp.started hstarted
  exact ⟨hself, hle⟩

omit [Value V] in
theorem Faithful.current_lt (hp : p.Faithful self rs) {b n : Ballot} (hb : p.current = some b)
    (hstart : p.start self = (p', effects, .started n)) : b < n := by
  obtain ⟨-, hself, hnext, -⟩ := start_eq_started hstart
  obtain ⟨hbself, hle⟩ := hp.current_le hb
  rw [Ballot.lt_iff_round (hbself.trans hself.symm), UInt64.lt_iff_toNat_lt]
  exact hle.trans_lt (nextRound_eq_none hnext).1

end Proposer

end Synod
