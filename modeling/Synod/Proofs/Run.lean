import Synod.Cluster.Direct

/-! Runs: what is done to a cluster from outside, one operation after another. Messages come onto
the bus only from nodes. -/

namespace Synod

inductive Operation (V : Type) where
  | propose (id : NodeId) (value : Option V)
  | setValue (id : NodeId) (value : V)
  | fail (id : NodeId)
  | recover (id : NodeId)
  | tick
  /-- One node handles its inbox, outside of a tick. -/
  | process (id : NodeId)

namespace Cluster

variable {V σ : Type} [Value V] [Shuffler σ]

def perform (c : Cluster V σ) : Operation V → Cluster V σ
  | .propose id value => (c.propose id value).1
  | .setValue id value => (c.setValue id value).1
  | .fail id => (c.fail id).1
  | .recover id => (c.recover id).1
  | .tick => c.tick.1
  | .process id => (c.processNode id).1

def run (c : Cluster V σ) (ops : List (Operation V)) : Cluster V σ :=
  ops.foldl perform c

@[simp] theorem run_nil (c : Cluster V σ) : c.run [] = c := rfl

@[simp] theorem run_cons (c : Cluster V σ) (op : Operation V) (ops : List (Operation V)) :
    c.run (op :: ops) = (c.perform op).run ops := rfl

theorem run_append (c : Cluster V σ) (ops later : List (Operation V)) :
    c.run (ops ++ later) = (c.run ops).run later :=
  List.foldl_append

end Cluster

end Synod
