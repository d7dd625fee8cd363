import Synod.Proofs.Calls

/-! The ballot of a retry. A refusal that reaches a proposer while its round is in flight ends the
round, and whatever is asked of the proposer then, its next round comes after the refusing ballot. A
refusal by a later ballot that reaches it once the round has ended is forgotten. -/

namespace Synod

variable {V : Type}

theorem Ballot.le_later_right (seen : Option Ballot) (b : Ballot) : b ≤ later seen b := by
  unfold later
  split
  · exact le_rfl
  · split_ifs with h
    · exact le_rfl
    · exact not_lt.mp h

theorem Ballot.le_later_left (a b : Ballot) : a ≤ later (some a) b := by
  unfold later
  dsimp only
  split_ifs with h
  · exact h.le
  · exact le_rfl

namespace Proposer

/-- A proposer takes notice of a ballot while its round is in flight, and always of one that is not
after its last round. -/
def Heeds (p : Proposer V) (b : Ballot) : Prop :=
  p.isProposing = true ∨ ∃ c, p.current = some c ∧ b ≤ c

/-- What a proposer counts its rounds on from is not before a ballot. -/
def Passed (p : Proposer V) (b : Ballot) : Prop :=
  (∃ c, p.current = some c ∧ b ≤ c) ∨ ∃ seen, p.highestSeen = some seen ∧ b ≤ seen

variable {self : NodeId} {p p' : Proposer V} {b : Ballot} {effects : List (Effect V)}
  {rs : List (Remark V)}

/-- The next round comes after all that a proposer counts on from. -/
theorem Passed.lt (h : p.Passed b) (hp : p.Faithful self rs) {n : Ballot}
    (hstart : p.start self = (p', effects, .started n)) : b < n := by
  rcases h with ⟨c, hc, hle⟩ | ⟨seen, hseen, hle⟩
  · exact hle.trans_lt (hp.current_lt hc hstart)
  · obtain ⟨-, -, hnext, -⟩ := start_eq_started hstart
    have hround := (nextRound_eq_none hnext).2 seen hseen
    exact hle.trans_lt (Ballot.lt_iff.mpr (.inl (UInt64.lt_iff_toNat_lt.mpr hround)))

variable [Value V]

/-- A refusal that ends a round is counted on from. -/
theorem Reaction.passed {sender : NodeId} {body : Body V}
    (h : p.Reaction sender body p' effects) (hb : p.Passed b) : p'.Passed b := by
  cases h with
  | @abandon m acc c value reports hc hphase hlt =>
    refine hb.imp_right fun ⟨seen, hseen, hle⟩ => ⟨_, rfl, hle.trans ?_⟩
    rw [hseen]
    exact Ballot.le_later_left seen m
  | conclude hc hphase hn =>
    rw [conclude_fst]
    exact hb
  | _ => exact hb

theorem Called.passed {c : Call V} (h : p.Called self c p' effects) (hp : p.Faithful self rs)
    (hb : p.Passed b) : p'.Passed b := by
  cases h with
  | started hstart =>
    have hlt := hb.lt hp hstart
    obtain ⟨-, -, -, rfl, -⟩ := start_eq_started hstart
    exact .inl ⟨_, rfl, hlt.le⟩
  | handled hreaction => exact hreaction.passed hb
  | _ => exact hb

theorem Passed.callAll (hb : p.Passed b) (hp : p.Faithful self rs) (calls : List (Call V)) :
    (p.callAll self calls).Passed b := by
  induction calls generalizing p rs with
  | nil => exact hb
  | cons c calls ih =>
    have hcalled := call_called self p c
    exact ih (hcalled.passed hp hb) (hcalled.faithful hp)

/-- A promise that is heeded is counted on from. -/
theorem Heeds.passed (h : p.Heeds b) (hp : p.Faithful self rs) (sender : NodeId)
    (acc : Option (Vote V)) :
    (p.call self (.handle sender (.promise b acc))).1.Passed b := by
  rw [call_promise]
  have hreaction := onPromise_reaction p sender b acc
  have hcurrent (c : Ballot) (hc : p.current = some c) (hle : b ≤ c) :
      (p.onPromise sender b acc).1.Passed b := hreaction.passed (.inl ⟨c, hc, hle⟩)
  rcases h with hproposing | ⟨c, hc, hle⟩
  · obtain ⟨c, hc⟩ := hp.current_of_proposing hproposing
    rcases le_or_gt b c with hle | hlt
    · exact hcurrent c hc hle
    · obtain ⟨value, reports, hphase⟩ := isProposing_iff.mp hproposing
      rw [onPromise_of_lt hc hphase hlt]
      exact .inr ⟨_, rfl, Ballot.le_later_right _ b⟩
  · exact hcurrent c hc hle

theorem call_promise_of_not_heeds (h : ¬ p.Heeds b) (sender : NodeId) (acc : Option (Vote V)) :
    (p.call self (.handle sender (.promise b acc))).1 = p := by
  rw [call_promise]
  have hidle : p.phase = .idle := by
    cases hphase : p.phase with
    | idle => rfl
    | preparing value reports => exact absurd (.inl (by simp [isProposing, hphase])) h
  unfold onPromise
  rw [hidle]
  cases p.current <;> rfl

/-- Whatever a proposer has been asked: a promise that it heeds is of a ballot before every round
that it starts from then on, and one that it does not heed leaves it as it was. -/
theorem retry_after_heeded (self : NodeId) (acceptors : List NodeId) (value : V)
    (before : List (Call V)) (sender : NodeId) (b : Ballot) (acc : Option (Vote V)) :
    let p := callAll self { acceptors, value } before
    let p' := (p.call self (.handle sender (.promise b acc))).1
    (p.Heeds b → ∀ later n, ((p'.callAll self later).start self).2.2 = .started n → b < n) ∧
      (¬ p.Heeds b → p' = p) := by
  intro p p'
  refine ⟨fun hheeds later n hstart => ?_, fun hnot => call_promise_of_not_heeds hnot sender acc⟩
  have hp : p.Faithful self _ := (faithful_nil acceptors value self).callAll before
  have hp' : p'.Faithful self _ := (call_called self p _).faithful hp
  have hpassed := (hheeds.passed hp sender acc).callAll hp' later
  exact hpassed.lt (hp'.callAll later) (Prod.ext rfl (Prod.ext rfl hstart))

/-! ### Two refusals of one round -/

/-- A round is refused by two acceptors, by the second one because of the later ballot. -/
def refusedTwice : List (Call String) :=
  [.start, .handle ⟨"A1"⟩ (.promise ⟨1, ⟨"P2"⟩⟩ none), .handle ⟨"A2"⟩ (.promise ⟨2, ⟨"P3"⟩⟩ none)]

/-- The retry comes after the first refusal and before the second one, which reached the proposer
when its round had ended. -/
theorem retry_of_refusedTwice :
    let p : Proposer String := { acceptors := [⟨"A1"⟩, ⟨"A2"⟩, ⟨"A3"⟩], value := "x" }
    let n : Ballot := ⟨2, ⟨"P1"⟩⟩
    ((p.callAll ⟨"P1"⟩ refusedTwice).start ⟨"P1"⟩).2.2 = .started n ∧
      (⟨1, ⟨"P2"⟩⟩ : Ballot) < n ∧ n < ⟨2, ⟨"P3"⟩⟩ := by
  intro p n
  have hstart : ((p.callAll ⟨"P1"⟩ refusedTwice).start ⟨"P1"⟩).2.2 = .started n := by
    decide +kernel
  have hretry := retry_after_heeded ⟨"P1"⟩ p.acceptors p.value (refusedTwice.take 1) ⟨"A1"⟩
    ⟨1, ⟨"P2"⟩⟩ none
  exact ⟨hstart, hretry.1 (.inl rfl) (refusedTwice.drop 2) n hstart, by decide +kernel⟩

end Proposer

end Synod
