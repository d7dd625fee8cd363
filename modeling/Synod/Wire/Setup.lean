import Synod.Wire.Json
import Synod.Setup

/-! The written form of setups. -/

namespace Synod

variable {V : Type} [Wire V]

instance : Wire (Candidate V) where
  encode c := .object [("id", encode c.id), ("initial_value", encode c.value)]
  decode? j :=
    match j.fields? ["id", "initial_value"] 0 with
    | some [id, value] => do
      let id ← decode? id
      let value ← decode? value
      return ⟨id, value⟩
    | _ => none

instance : Wire (Setup V) where
  encode s :=
    .object [("acceptors", encode s.acceptors), ("learners", encode s.learners),
      ("proposers", encode s.candidates), ("seed", encode s.seed)]
  decode? j :=
    match j.fields? ["acceptors", "learners", "proposers", "seed"] 1 with
    | some [acceptors, learners, candidates, seed] => do
      let acceptors ← decode? acceptors
      let learners ← decode? learners
      let candidates ← decode? candidates
      let seed ← decode? seed
      return ⟨acceptors, learners, candidates, seed⟩
    | _ => none

end Synod
