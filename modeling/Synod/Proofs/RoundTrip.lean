import Mathlib.Data.List.Forall2
import Mathlib.Data.List.Nodup
import Mathlib.Data.Option.Defs
import Synod.Wire.Message
import Synod.Wire.Setup

/-! Round trips. What is written is read back as it was, in whatever order the members of its
objects come, so that no two values of a type have one written form. -/

namespace Synod

namespace Json

/-! ## The order of members -/

/-- JSON values that differ at most in the order of the members of their objects. -/
inductive Alike : Json → Json → Prop
  | refl (j : Json) : Alike j j
  | list {items items' : List Json} (hitems : List.Forall₂ Alike items items') :
      Alike (.list items) (.list items')
  | object {members members' : List (String × Json)} (hnodup : (members.map Prod.fst).Nodup)
      (hnames : (members.map Prod.fst).Perm (members'.map Prod.fst))
      (hvalues : ∀ name, Option.Rel Alike (members.lookup name) (members'.lookup name)) :
      Alike (.object members) (.object members')

theorem rel_alike_refl : ∀ j : Option Json, Option.Rel Alike j j
  | none => .none
  | some j => .some (.refl j)

theorem lookup_eq_of_perm {members members' : List (String × Json)}
    (hnodup : (members.map Prod.fst).Nodup) (hperm : members.Perm members') (name : String) :
    members.lookup name = members'.lookup name := by
  induction hperm with
  | nil => rfl
  | cons m _ ih =>
    rw [List.lookup_cons, List.lookup_cons, ih (List.nodup_cons.mp hnodup).2]
  | swap m n members =>
    obtain ⟨x, a⟩ := m
    obtain ⟨y, b⟩ := n
    have hne : x ≠ y := by
      rintro rfl
      simp at hnodup
    by_cases hx : name = x
    · subst hx
      simp [List.lookup_cons, beq_false_of_ne hne]
    · simp [List.lookup_cons, beq_false_of_ne hx]
  | trans h _ ih ih' => exact (ih hnodup).trans (ih' ((h.map _).nodup_iff.mp hnodup))

/-- Members may be put in any order. -/
theorem alike_of_perm {members members' : List (String × Json)}
    (hnodup : (members.map Prod.fst).Nodup) (hperm : members.Perm members') :
    Alike (.object members) (.object members') :=
  .object hnodup (hperm.map _) fun name =>
    lookup_eq_of_perm hnodup hperm name ▸ rel_alike_refl _

namespace Alike

variable {j : Json}

theorem eq_null (h : Alike j .null) : j = .null := by
  cases h
  rfl

theorem list_inv {items : List Json} (h : Alike (.list items) j) :
    ∃ items', j = .list items' ∧ List.Forall₂ Alike items items' := by
  cases h with
  | refl => exact ⟨items, rfl, List.forall₂_same.mpr fun _ _ => .refl _⟩
  | list hitems => exact ⟨_, rfl, hitems⟩

theorem object_inv {members : List (String × Json)} (h : Alike (.object members) j) :
    ∃ members', j = .object members' ∧ (members.map Prod.fst).Perm (members'.map Prod.fst) ∧
      ∀ name, Option.Rel Alike (members.lookup name) (members'.lookup name) := by
  cases h with
  | refl => exact ⟨members, rfl, .refl _, fun _ => rel_alike_refl _⟩
  | object _ hnames hvalues => exact ⟨_, rfl, hnames, hvalues⟩

theorem single_inv {name : String} {value : Json} (h : Alike (.object [(name, value)]) j) :
    ∃ value', j = .object [(name, value')] ∧ Alike value value' := by
  obtain ⟨members', rfl, hnames, hvalues⟩ := h.object_inv
  have hnames := (List.singleton_perm.mp hnames).symm
  obtain ⟨⟨name', value'⟩, rfl, rfl⟩ := List.map_eq_singleton_iff.mp hnames
  have hvalue := hvalues name'
  simp only [List.lookup_cons, beq_self_eq_true] at hvalue
  cases hvalue with
  | some hvalue => exact ⟨value', rfl, hvalue⟩

end Alike

/-! ## Members -/

/-- The member of that name reads as a value. One that is missing is null. -/
def Reads {α : Type} [Wire α] (members : List (String × Json)) (name : String) (a : α) : Prop :=
  decode? ((members.lookup name).getD .null) = some a

/-- The member of that name is missing or null. -/
def Absent (members : List (String × Json)) (name : String) : Prop :=
  members.lookup name = none ∨ members.lookup name = some .null

/-- What is absent reads as none. -/
theorem Absent.reads_iff {α : Type} [Wire α] {members : List (String × Json)} {name : String}
    (h : Absent members name) {a : Option α} : Reads members name a ↔ a = none := by
  have hnull : (members.lookup name).getD .null = .null := by
    rcases h with h | h <;> simp [h]
  have hdecode : (decode? .null : Option (Option α)) = some none := rfl
  rw [Reads, hnull, hdecode, Option.some.injEq, eq_comm]

end Json

/-! ## Types whose written forms read back -/

/-- What is written is read back, in whatever order the members come. -/
class LawfulWire (α : Type) [Wire α] : Prop where
  decode?_of_alike {a : α} {j : Json} (h : Json.Alike (encode a) j) : decode? j = some a

/-- Types of which no value is written as null. Only these can be optional: a value that is written
as null would be read as none. -/
class NeverNull (α : Type) [Wire α] : Prop where
  encode_ne_null (a : α) : encode a ≠ .null

open LawfulWire

/-- Each value has a written form of its own, which reads back, and the order of members does not
count for either. -/
structure Lossless (α : Type) [Wire α] : Prop where
  decode?_encode (a : α) : decode? (encode a) = some a
  decode?_of_alike {a : α} {j : Json} (h : Json.Alike (encode a) j) : decode? j = some a
  encode_injective : Function.Injective (encode : α → Json)
  eq_of_alike {a b : α} (h : Json.Alike (encode a) (encode b)) : a = b

section

variable {α : Type} [Wire α] [LawfulWire α]

theorem decode?_encode (a : α) : decode? (encode a) = some a := decode?_of_alike (.refl _)

theorem lossless : Lossless α where
  decode?_encode := decode?_encode
  decode?_of_alike := decode?_of_alike
  encode_injective a b h := by
    have hread := decode?_encode a
    rw [h, decode?_encode b] at hread
    exact (Option.some.inj hread).symm
  eq_of_alike {a b} h := by
    have hread := decode?_of_alike h
    rw [decode?_encode b] at hread
    exact (Option.some.inj hread).symm

/-- A member is read back where its place is looked up. -/
theorem reads_of_lookup {members members' : List (String × Json)} {name : String} {a : α}
    (hvalues : ∀ name, Option.Rel Json.Alike (members.lookup name) (members'.lookup name))
    (hname : members.lookup name = some (encode a)) : Json.Reads members' name a := by
  have hvalue := hvalues name
  rw [hname] at hvalue
  unfold Json.Reads
  generalize members'.lookup name = found at hvalue ⊢
  cases hvalue with
  | some hvalue => exact decode?_of_alike hvalue

end

instance : LawfulWire String where
  decode?_of_alike h := by
    cases h
    rfl

instance : LawfulWire NodeId where
  decode?_of_alike h := by
    cases h
    rfl

instance : NeverNull UInt64 := ⟨fun _ => Json.noConfusion⟩

instance : LawfulWire UInt64 where
  decode?_of_alike {n j} h := by
    cases h
    have hlt := n.toNat_lt
    simp only [decode?, encode, UInt64.size]
    rw [if_pos (by omega)]
    simp

theorem decode?_of_ne_null {α : Type} [Wire α] {j : Json} (h : j ≠ .null) :
    (decode? j : Option (Option α)) = (decode? j).map some := by
  cases j with
  | null => exact absurd rfl h
  | _ => rfl

instance {α : Type} [Wire α] [LawfulWire α] [NeverNull α] : LawfulWire (Option α) where
  decode?_of_alike {a j} h := by
    cases a with
    | none =>
      cases h
      rfl
    | some a =>
      replace h : Json.Alike (encode a) j := h
      have hne : j ≠ .null := by
        rintro rfl
        exact NeverNull.encode_ne_null a h.eq_null
      rw [decode?_of_ne_null hne, LawfulWire.decode?_of_alike h, Option.map_some]

instance {α : Type} [Wire α] [LawfulWire α] : LawfulWire (List α) where
  decode?_of_alike {as j} h := by
    obtain ⟨items, rfl, hitems⟩ := h.list_inv
    rw [List.forall₂_map_left_iff] at hitems
    clear h
    change Json.decodeAll? items = some as
    induction hitems with
    | nil => rfl
    | cons hitem _ ih => simp [Json.decodeAll?, LawfulWire.decode?_of_alike hitem, ih]

/-! ## What an object reads as -/

section

variable {members : List (String × Json)}

theorem decode?_ballot_iff {b : Ballot} : decode? (.object members) = some b ↔
    Json.Reads members "round" b.round ∧ Json.Reads members "proposer" b.proposer := by
  change (do
    let round ← decode? ((members.lookup "round").getD .null)
    let proposer ← decode? ((members.lookup "proposer").getD .null)
    return (⟨round, proposer⟩ : Ballot)) = some b ↔ _
  cases b
  simp [Json.Reads, Option.bind_eq_some_iff]

variable {V : Type} [Wire V]

theorem decodeFields?_iff {vote : Vote V} : Vote.decodeFields? (.object members) = some vote ↔
    Json.Reads members "proposal" vote.ballot ∧ Json.Reads members "value" vote.value := by
  change (do
    let ballot ← decode? ((members.lookup "proposal").getD .null)
    let value ← decode? ((members.lookup "value").getD .null)
    return (⟨ballot, value⟩ : Vote V)) = some vote ↔ _
  cases vote
  simp [Json.Reads, Option.bind_eq_some_iff]

theorem decode?_promise_iff {body : Body V} :
    decode? (.object [("Promise", .object members)]) = some body ↔
      ∃ ballot accepted, body = .promise ballot accepted ∧
        Json.Reads members "proposal" ballot ∧ Json.Reads members "accepted" accepted := by
  change (do
    let ballot ← decode? ((members.lookup "proposal").getD .null)
    let accepted ← decode? ((members.lookup "accepted").getD .null)
    return (.promise ballot accepted : Body V)) = some body ↔ _
  simp only [Json.Reads, Option.bind_eq_bind, Option.bind_eq_some_iff, Option.pure_def,
    Option.some.injEq]
  constructor
  · rintro ⟨ballot, hballot, accepted, haccepted, rfl⟩
    exact ⟨ballot, accepted, rfl, hballot, haccepted⟩
  · rintro ⟨ballot, accepted, rfl, hballot, haccepted⟩
    exact ⟨ballot, hballot, accepted, haccepted, rfl⟩

theorem decode?_message_iff {m : Message V} : decode? (.object members) = some m ↔
    Json.Reads members "sender" m.sender ∧ Json.Reads members "receiver" m.receiver ∧
      Json.Reads members "body" m.body := by
  change (do
    let sender ← decode? ((members.lookup "sender").getD .null)
    let receiver ← decode? ((members.lookup "receiver").getD .null)
    let body ← decode? ((members.lookup "body").getD .null)
    return (⟨sender, receiver, body⟩ : Message V)) = some m ↔ _
  cases m
  simp [Json.Reads, Option.bind_eq_some_iff]

theorem decode?_candidate_iff {c : Candidate V} : decode? (.object members) = some c ↔
    Json.Reads members "id" c.id ∧ Json.Reads members "initial_value" c.value := by
  change (do
    let id ← decode? ((members.lookup "id").getD .null)
    let value ← decode? ((members.lookup "initial_value").getD .null)
    return (⟨id, value⟩ : Candidate V)) = some c ↔ _
  cases c
  simp [Json.Reads, Option.bind_eq_some_iff]

theorem decode?_setup_iff {s : Setup V} : decode? (.object members) = some s ↔
    Json.Reads members "acceptors" s.acceptors ∧ Json.Reads members "learners" s.learners ∧
      Json.Reads members "proposers" s.candidates ∧ Json.Reads members "seed" s.seed := by
  change (do
    let acceptors ← decode? ((members.lookup "acceptors").getD .null)
    let learners ← decode? ((members.lookup "learners").getD .null)
    let candidates ← decode? ((members.lookup "proposers").getD .null)
    let seed ← decode? ((members.lookup "seed").getD .null)
    return (⟨acceptors, learners, candidates, seed⟩ : Setup V)) = some s ↔ _
  cases s
  simp [Json.Reads, Option.bind_eq_some_iff]

end

/-! ## Ballots, messages and setups -/

instance : LawfulWire Ballot where
  decode?_of_alike h := by
    obtain ⟨members, rfl, -, hvalues⟩ := h.object_inv
    exact decode?_ballot_iff.mpr ⟨reads_of_lookup hvalues rfl, reads_of_lookup hvalues rfl⟩

section

variable {V : Type} [Wire V]

instance : NeverNull (Vote V) := ⟨fun _ => Json.noConfusion⟩

variable [LawfulWire V]

instance : LawfulWire (Vote V) where
  decode?_of_alike h := by
    obtain ⟨items, rfl, hitems⟩ := h.list_inv
    cases hitems with
    | cons hballot hrest =>
      cases hrest with
      | cons hvalue hnil =>
        cases hnil
        change (do
          let ballot ← decode? _
          let value ← decode? _
          return (⟨ballot, value⟩ : Vote V)) = _
        simp [LawfulWire.decode?_of_alike hballot, LawfulWire.decode?_of_alike hvalue]

theorem decodeFields?_of_alike {vote : Vote V} {j : Json} (h : Json.Alike vote.encodeFields j) :
    Vote.decodeFields? j = some vote := by
  obtain ⟨members, rfl, -, hvalues⟩ := h.object_inv
  exact decodeFields?_iff.mpr ⟨reads_of_lookup hvalues rfl, reads_of_lookup hvalues rfl⟩

instance : LawfulWire (Body V) where
  decode?_of_alike {body j} h := by
    cases body with
    | prepare ballot =>
      obtain ⟨fields, rfl, hfields⟩ := h.single_inv
      obtain ⟨members, rfl, -, hvalues⟩ := hfields.object_inv
      have hballot : Json.Reads members "proposal" ballot := reads_of_lookup hvalues rfl
      exact congrArg (Option.map Body.prepare) hballot
    | promise ballot accepted =>
      obtain ⟨fields, rfl, hfields⟩ := h.single_inv
      obtain ⟨members, rfl, -, hvalues⟩ := hfields.object_inv
      exact decode?_promise_iff.mpr
        ⟨_, _, rfl, reads_of_lookup hvalues rfl, reads_of_lookup hvalues rfl⟩
    | accept vote =>
      obtain ⟨fields, rfl, hfields⟩ := h.single_inv
      exact congrArg (Option.map Body.accept) (decodeFields?_of_alike hfields)
    | accepted vote =>
      obtain ⟨fields, rfl, hfields⟩ := h.single_inv
      exact congrArg (Option.map Body.accepted) (decodeFields?_of_alike hfields)
    | learn vote =>
      obtain ⟨fields, rfl, hfields⟩ := h.single_inv
      exact congrArg (Option.map Body.learn) (decodeFields?_of_alike hfields)

instance : LawfulWire (Message V) where
  decode?_of_alike h := by
    obtain ⟨members, rfl, -, hvalues⟩ := h.object_inv
    exact decode?_message_iff.mpr ⟨reads_of_lookup hvalues rfl, reads_of_lookup hvalues rfl,
      reads_of_lookup hvalues rfl⟩

instance : LawfulWire (Candidate V) where
  decode?_of_alike h := by
    obtain ⟨members, rfl, -, hvalues⟩ := h.object_inv
    exact decode?_candidate_iff.mpr ⟨reads_of_lookup hvalues rfl, reads_of_lookup hvalues rfl⟩

instance : LawfulWire (Setup V) where
  decode?_of_alike h := by
    obtain ⟨members, rfl, -, hvalues⟩ := h.object_inv
    exact decode?_setup_iff.mpr ⟨reads_of_lookup hvalues rfl, reads_of_lookup hvalues rfl,
      reads_of_lookup hvalues rfl, reads_of_lookup hvalues rfl⟩

end

/-! ## All that is written -/

/-- Ballots, messages and setups are read back as they were written, and no two of them are written
alike. A vote or a seed that is missing or null is none, whatever else stands in the object. -/
theorem written_forms_read_back :
    (Lossless Ballot ∧ Lossless (Body String) ∧ Lossless (Message String) ∧
      Lossless (Setup String)) ∧
    (∀ members, Json.Absent members "accepted" → ∀ body : Body String,
      decode? (.object [("Promise", .object members)]) = some body ↔
        ∃ ballot, body = .promise ballot none ∧ Json.Reads members "proposal" ballot) ∧
    ∀ members, Json.Absent members "seed" → ∀ s : Setup String,
      decode? (.object members) = some s ↔
        s.seed = none ∧ Json.Reads members "acceptors" s.acceptors ∧
          Json.Reads members "learners" s.learners ∧
          Json.Reads members "proposers" s.candidates := by
  refine ⟨⟨lossless, lossless, lossless, lossless⟩, fun members habsent body => ?_,
    fun members habsent s => ?_⟩
  · rw [decode?_promise_iff]
    simp [habsent.reads_iff]
  · rw [decode?_setup_iff, habsent.reads_iff]
    tauto

/-- The largest round and a name with a dot, with the members in the other order; a promise without
a vote, and a setup whose seed is null. -/
theorem written_forms_read_back_of_reordered :
    let ballot : Ballot := ⟨18446744073709551615, ⟨"P.1"⟩⟩
    let members : List (String × Json) :=
      [("proposer", .text "P.1"), ("round", .int 18446744073709551615)]
    let bare : List (String × Json) := [("note", .null), ("proposal", .object members)]
    let unseeded : List (String × Json) :=
      [("seed", .null), ("proposers", .list []), ("learners", .list [.text "L1"]),
        ("acceptors", .list [.text "A1"])]
    Json.Alike (encode ballot) (.object members) ∧ decode? (.object members) = some ballot ∧
      Json.Absent bare "accepted" ∧
      decode? (.object [("Promise", .object bare)]) = some (.promise ballot none : Body String) ∧
      Json.Absent unseeded "seed" ∧
      decode? (.object unseeded) = some (⟨[⟨"A1"⟩], [⟨"L1"⟩], [], none⟩ : Setup String) := by
  intro ballot members bare unseeded
  obtain ⟨⟨hballots, -⟩, hpromise, hsetup⟩ := written_forms_read_back
  have halike : Json.Alike (encode ballot) (.object members) :=
    Json.alike_of_perm (by decide) (.swap _ _ _)
  have hread := hballots.decode?_of_alike halike
  have hbare : Json.Absent bare "accepted" := .inl rfl
  have hunseeded : Json.Absent unseeded "seed" := .inr rfl
  exact ⟨halike, hread, hbare, (hpromise bare hbare _).mpr ⟨ballot, rfl, hread⟩, hunseeded,
    (hsetup unseeded hunseeded _).mpr ⟨rfl, rfl, rfl, rfl⟩⟩

end Synod
