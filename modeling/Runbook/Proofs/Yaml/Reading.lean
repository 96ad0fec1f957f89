/-
What the reader of nodes makes of tokens whose start is known.

The reader looks at one token at a time and goes on with the rest, so as far as the tokens are
known its steps can be followed (`node_blockMapping`, `node_flowMapping`, `node_scalar`), and the
entry that stands first in a mapping is the first that is read (`blockEntries_key`,
`flowEntries_key`), whatever comes after it.
-/
import Runbook.Yaml.Node

namespace Runbook.Yaml

/-! ## Steps over a state -/

section

variable {σ α β : Type} {s s' : σ}

theorem map_eq_some {f : α → β} {x : StateT σ Option α} {b : β}
    (h : (f <$> x) s = some (b, s')) : ∃ a, x s = some (a, s') ∧ f a = b := by
  obtain ⟨⟨a, s''⟩, hx, heq⟩ := Option.bind_eq_some_iff.mp h
  cases heq
  exact ⟨a, hx, rfl⟩

theorem bind_eq_some {x : StateT σ Option α} {f : α → StateT σ Option β} {r : β × σ}
    (h : (x >>= f) s = some r) : ∃ a s'', x s = some (a, s'') ∧ f a s'' = some r := by
  obtain ⟨⟨a, s''⟩, hx, hf⟩ := Option.bind_eq_some_iff.mp h
  exact ⟨a, s'', hx, hf⟩

end

namespace Reader

variable {s s' : Reading} {ts : List Token} {fuel : Nat} {block indentless : Bool}

/-! ## Nodes -/

theorem node_scalar {style : ScalarStyle} {text : String}
    (h : s.tokens = .scalar style text :: ts) : node (fuel + 2) block indentless s =
      some (.scalar none style text, { s with tokens := ts }) := by
  obtain ⟨tokens, handles, anchors⟩ := s
  obtain rfl : tokens = _ := h
  cases block <;> cases indentless <;> rfl

theorem node_blockMapping (h : s.tokens = .blockMappingStart :: ts) :
    node (fuel + 2) true indentless s =
      (Node.mapping none <$> blockEntries fuel) { s with tokens := ts } := by
  obtain ⟨tokens, handles, anchors⟩ := s
  obtain rfl : tokens = _ := h
  cases indentless <;> rfl

theorem node_flowMapping (h : s.tokens = .flowMappingStart :: ts) :
    node (fuel + 2) block indentless s =
      (Node.mapping none <$> flowEntries fuel true) { s with tokens := ts } := by
  obtain ⟨tokens, handles, anchors⟩ := s
  obtain rfl : tokens = _ := h
  cases block <;> cases indentless <;> rfl

/-- A node is read where something of it comes next. -/
theorem nodeUnless_of_not_contains {t : Token} {stops : List Token}
    (h : s.tokens = t :: ts) (ht : stops.contains t = false) :
    nodeUnless (fuel + 1) block indentless stops s = node fuel block indentless s := by
  have hnext : nextIsOf stops s = some (false, s) := by
    obtain ⟨tokens, handles, anchors⟩ := s
    obtain rfl : tokens = _ := h
    exact congrArg (fun b => some (b, _)) ht
  rw [nodeUnless]
  show Option.bind (nextIsOf stops s) _ = _
  rw [hnext]
  rfl

/-! ## Entries -/

variable {style : ScalarStyle} {name : String} {t : Token} {es : List (Node × Node)}

/-- A key that is a scalar, with its colon and a value after it. -/
theorem entry_read {stops stops' : List Token} {others : Reader (List (Node × Node))}
    (hname : stops.contains (.scalar style name) = false) (ht : stops'.contains t = false)
    (hread : (do
      let k ← nodeUnless (fuel + 3) block block stops
      let v ← valueUnless (fuel + 3) block stops'
      return (k, v) :: (← others) : Reader (List (Node × Node)))
        { s with tokens := .scalar style name :: .value :: t :: ts } = some (es, s')) :
    ∃ v s'' more, node (fuel + 1) block block { s with tokens := t :: ts } = some (v, s'') ∧
      es = (.scalar none style name, v) :: more := by
  obtain ⟨k, afterName, hk, hread⟩ := bind_eq_some hread
  obtain ⟨v, afterValue, hv, hread⟩ := bind_eq_some hread
  obtain ⟨more, last, -, hmore⟩ := bind_eq_some hread
  rw [nodeUnless_of_not_contains rfl hname, node_scalar rfl] at hk
  cases hk
  cases hmore
  have hvalue : valueUnless (fuel + 3) block stops' { s with tokens := .value :: t :: ts } =
      nodeUnless (fuel + 2) block block stops' { s with tokens := t :: ts } := rfl
  rw [hvalue, nodeUnless_of_not_contains rfl ht] at hv
  exact ⟨v, afterValue, more, hv, rfl⟩

/-- The first entry of a block mapping. -/
theorem blockEntries_key (h : s.tokens = .key :: .scalar style name :: .value :: t :: ts)
    (ht : [Token.key, .value, .blockEnd].contains t = false)
    (hread : blockEntries (fuel + 4) s = some (es, s')) :
    ∃ v s'' more, node (fuel + 1) true true { s with tokens := t :: ts } = some (v, s'') ∧
      es = (.scalar none style name, v) :: more := by
  have hentries : blockEntries (fuel + 4) s = (do
      let k ← nodeUnless (fuel + 3) true true [.key, .value, .blockEnd]
      let v ← valueUnless (fuel + 3) true [.key, .value, .blockEnd]
      return (k, v) :: (← blockEntries (fuel + 3)) : Reader (List (Node × Node)))
        { s with tokens := .scalar style name :: .value :: t :: ts } := by
    obtain ⟨tokens, handles, anchors⟩ := s
    obtain rfl : tokens = _ := h
    rfl
  rw [hentries] at hread
  exact entry_read rfl ht hread

/-- The first entry of a flow mapping. -/
theorem flowEntries_key (h : s.tokens = .key :: .scalar style name :: .value :: t :: ts)
    (ht : [Token.flowEntry, .flowMappingEnd].contains t = false)
    (hread : flowEntries (fuel + 4) true s = some (es, s')) :
    ∃ v s'' more, node (fuel + 1) false false { s with tokens := t :: ts } = some (v, s'') ∧
      es = (.scalar none style name, v) :: more := by
  have hentries : flowEntries (fuel + 4) true s = (do
      let k ← nodeUnless (fuel + 3) false false [.value, .flowEntry, .flowMappingEnd]
      let v ← valueUnless (fuel + 3) false [.flowEntry, .flowMappingEnd]
      return (k, v) :: (← flowEntries (fuel + 3) false) : Reader (List (Node × Node)))
        { s with tokens := .scalar style name :: .value :: t :: ts } := by
    obtain ⟨tokens, handles, anchors⟩ := s
    obtain rfl : tokens = _ := h
    rfl
  rw [hentries] at hread
  exact entry_read rfl ht hread

end Reader

end Runbook.Yaml
