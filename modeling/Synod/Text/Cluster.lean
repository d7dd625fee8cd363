import Synod.Text.Cluster.Classes

/-! Grapheme clusters: what a reader takes for one character, such as a letter with its marks, a
flag or a joined emoji. A text is the concatenation of its clusters. -/

namespace Synod.Text

namespace Cluster

/-- What a character does to the bounds of clusters. -/
inductive Kind where
  | carriageReturn
  | lineFeed
  | control
  | extender
  | joiner
  | spacingMark
  | prepended
  | regional
  | leading
  | vowel
  | trailing
  | openSyllable
  | closedSyllable
  | pictograph
  | other
deriving DecidableEq

def kind (c : Char) : Kind :=
  if c = '\r' then .carriageReturn
  else if c = '\n' then .lineFeed
  else if c.toNat = 0x200D then .joiner
  else if controls.has c then .control
  else if extenders.has c then .extender
  else if spacingMarks.has c then .spacingMark
  else if prependedSigns.has c then .prepended
  else if regionalIndicators.has c then .regional
  else if leadingJamo.has c then .leading
  else if vowelJamo.has c then .vowel
  else if trailingJamo.has c then .trailing
  else if syllables.has c then
    if (c.toNat - 0xAC00) % 28 = 0 then .openSyllable else .closedSyllable
  else if pictographs.has c then .pictograph
  else .other

/-- How far a cluster is on the way from one pictograph to the next. -/
inductive Emoji where
  | none
  /-- A pictograph, perhaps with extenders. -/
  | base
  /-- After that a joiner. -/
  | joined
deriving DecidableEq

/-- How far a cluster is on the way from one consonant to the next. -/
inductive Conjunct where
  | none
  | consonant
  | linked
deriving DecidableEq

/-- What matters of a cluster for the character after it. -/
structure Context where
  last : Kind
  emoji : Emoji
  conjunct : Conjunct
  /-- The cluster ends in a regional indicator that has no partner. -/
  unpaired : Bool

namespace Context

def start (c : Char) : Context where
  last := kind c
  emoji := if kind c = .pictograph then .base else .none
  conjunct := if conjunctConsonants.has c then .consonant else .none
  unpaired := kind c = .regional

/-- The conjunct after one more character. Extenders change nothing, save the one that asks for
letters to be kept apart. -/
def nextConjunct (before : Conjunct) (c : Char) : Conjunct :=
  if conjunctConsonants.has c then .consonant
  else if conjunctLinkers.has c then if before = .none then .none else .linked
  else if kind c = .joiner ∨ kind c = .extender ∧ c.toNat ≠ 0x200C then before
  else .none

def nextEmoji (before : Emoji) (c : Char) : Emoji :=
  match kind c, before with
  | .pictograph, _ => .base
  | .extender, .base => .base
  | .joiner, .base => .joined
  | _, _ => .none

/-- The context after a character has joined the cluster. -/
def next (ctx : Context) (c : Char) : Context where
  last := kind c
  emoji := nextEmoji ctx.emoji c
  conjunct := nextConjunct ctx.conjunct c
  unpaired := kind c = .regional && !ctx.unpaired

/-- Whether a character belongs to the cluster before it. -/
def joins (ctx : Context) (c : Char) : Bool :=
  match ctx.last, kind c with
  | .carriageReturn, .lineFeed => true
  | .carriageReturn, _ | .lineFeed, _ | .control, _ => false
  | _, .carriageReturn | _, .lineFeed | _, .control => false
  | _, .extender | _, .joiner | _, .spacingMark => true
  | .prepended, _ => true
  | .leading, .leading | .leading, .vowel | .leading, .openSyllable | .leading, .closedSyllable =>
    true
  | .openSyllable, .vowel | .openSyllable, .trailing | .vowel, .vowel | .vowel, .trailing => true
  | .closedSyllable, .trailing | .trailing, .trailing => true
  | _, .regional => ctx.unpaired
  | _, .pictograph => ctx.emoji = .joined
  | _, _ => ctx.conjunct = .linked && conjunctConsonants.has c

end Context

/-- The cluster read so far stands in front, its last character first. -/
def splitFrom (ctx : Context) (cluster : List Char) : List Char → List (List Char)
  | [] => [cluster.reverse]
  | c :: cs =>
    if ctx.joins c then splitFrom (ctx.next c) (c :: cluster) cs
    else cluster.reverse :: splitFrom (.start c) [c] cs

theorem flatten_splitFrom (ctx : Context) (cluster cs : List Char) :
    (splitFrom ctx cluster cs).flatten = cluster.reverse ++ cs := by
  induction cs generalizing ctx cluster with
  | nil => simp [splitFrom]
  | cons c cs ih =>
    simp only [splitFrom]
    split
    · simp [ih]
    · simp [ih]

end Cluster

def clusters : List Char → List (List Char)
  | [] => []
  | c :: cs => Cluster.splitFrom (.start c) [c] cs

theorem flatten_clusters (cs : List Char) : (clusters cs).flatten = cs := by
  cases cs with
  | nil => rfl
  | cons c cs => simp [clusters, Cluster.flatten_splitFrom]

/-- What a backspace leaves of the clusters before it, the last of them first. -/
def eraseLast (kept : List (List Char)) (cluster : List Char) : List (List Char) :=
  if cluster = ['\x08'] then kept.drop 1 else cluster :: kept

/-- The text that was meant where a backspace takes back the cluster before it. -/
def retyped (text : String) : String :=
  String.ofList ((clusters text.toList).foldl eraseLast []).reverse.flatten

theorem foldl_eraseLast {kept added : List (List Char)} (h : ['\x08'] ∉ added) :
    added.foldl eraseLast kept = added.reverse ++ kept := by
  induction added generalizing kept with
  | nil => rfl
  | cons cluster rest ih =>
    have hne : cluster ≠ ['\x08'] := fun he => h (he ▸ List.mem_cons_self)
    have hrest : ['\x08'] ∉ rest := fun hmem => h (List.mem_cons_of_mem _ hmem)
    simp [eraseLast, hne, ih hrest]

theorem retyped_eq_self {text : String} (h : '\x08' ∉ text.toList) : retyped text = text := by
  have hnot : ['\x08'] ∉ clusters text.toList := by
    intro hmem
    apply h
    rw [← flatten_clusters text.toList]
    exact List.mem_flatten.mpr ⟨_, hmem, List.mem_cons_self⟩
  rw [retyped, foldl_eraseLast hnot, List.append_nil, List.reverse_reverse, flatten_clusters,
    String.ofList_toList]

end Synod.Text
