import Mathlib.Data.Set.Card
import Mathlib.Logic.Relation
import Mathlib.Tactic

/-!
# Following links

A node links to at most one next node.  The trail from a node ends exactly when
no node on it links back to itself, as far as finitely many nodes can be reached;
a trail that ends visits no node twice.
-/

namespace SsfTransmitter.Core

section Links

variable {Node : Type*} (next : Node → Option Node)

/-- One link. -/
def LinksTo (source target : Node) : Prop :=
  next source = some target

/-- The nodes visited from a node on, up to one without a link. -/
inductive Trail : Node → List Node → Prop where
  | last {node : Node} : next node = none → Trail node [node]
  | more {node target : Node} {rest : List Node} :
      next node = some target → Trail target rest → Trail node (node :: rest)

variable {next}

theorem LinksTo.unique {source first second : Node} (hfirst : LinksTo next source first)
    (hsecond : LinksTo next source second) : first = second :=
  Option.some.inj (hfirst.symm.trans hsecond)

namespace Trail

theorem mem_self {node : Node} {nodes : List Node} (htrail : Trail next node nodes) :
    node ∈ nodes := by
  cases htrail <;> exact List.mem_cons_self

theorem unique {node : Node} {first second : List Node} (hfirst : Trail next node first)
    (hsecond : Trail next node second) : first = second := by
  induction hfirst generalizing second with
  | last hnone =>
      cases hsecond with
      | last => rfl
      | more hlink => rw [hnone] at hlink; cases hlink
  | more hlink _ ih =>
      cases hsecond with
      | last hnone => rw [hnone] at hlink; cases hlink
      | more hother hrest =>
          obtain rfl := LinksTo.unique hlink hother
          rw [ih hrest]

/-- The trail goes on from each node that a link leads to. -/
theorem of_links {node target : Node} {nodes : List Node} (htrail : Trail next node nodes)
    (hlink : LinksTo next node target) : ∃ rest, nodes = node :: rest ∧ Trail next target rest := by
  cases htrail with
  | last hnone =>
      rw [LinksTo, hnone] at hlink
      cases hlink
  | more hother hrest =>
      obtain rfl := LinksTo.unique hother hlink
      exact ⟨_, rfl, hrest⟩

/-- Every reachable node has its part of the trail. -/
theorem of_reachable {node target : Node} {nodes : List Node} (htrail : Trail next node nodes)
    (hreach : Relation.ReflTransGen (LinksTo next) node target) :
    ∃ rest, Trail next target rest ∧ rest <:+ nodes := by
  induction hreach using Relation.ReflTransGen.head_induction_on generalizing nodes with
  | refl => exact ⟨nodes, htrail, List.suffix_rfl⟩
  | head hlink _ ih =>
      obtain ⟨tail, rfl, htail⟩ := htrail.of_links hlink
      obtain ⟨rest, hrest, hsuffix⟩ := ih htail
      exact ⟨rest, hrest, hsuffix.trans (List.suffix_cons _ _)⟩

theorem mem_of_reachable {node target : Node} {nodes : List Node}
    (htrail : Trail next node nodes)
    (hreach : Relation.ReflTransGen (LinksTo next) node target) : target ∈ nodes := by
  obtain ⟨rest, hrest, hsuffix⟩ := htrail.of_reachable hreach
  exact hsuffix.mem hrest.mem_self

theorem reachable_of_mem {node target : Node} {nodes : List Node}
    (htrail : Trail next node nodes) (hmem : target ∈ nodes) :
    Relation.ReflTransGen (LinksTo next) node target := by
  induction htrail with
  | last =>
      obtain rfl := List.mem_singleton.mp hmem
      exact .refl
  | more hlink _ ih =>
      rcases List.mem_cons.mp hmem with rfl | hrest
      · exact .refl
      · exact .head hlink (ih hrest)

/-- A trail that ends leads no node back to itself. -/
theorem not_transGen_self {node : Node} {nodes : List Node} (htrail : Trail next node nodes) :
    ¬Relation.TransGen (LinksTo next) node node := by
  intro hcycle
  obtain ⟨target, hlink, hback⟩ := Relation.TransGen.head'_iff.mp hcycle
  obtain ⟨tail, rfl, htail⟩ := htrail.of_links hlink
  obtain ⟨rest, hrest, hsuffix⟩ := htail.of_reachable hback
  have hlength := hsuffix.length_le
  rw [hrest.unique htrail, List.length_cons] at hlength
  omega

/-- A trail that ends visits no node twice. -/
theorem nodup {node : Node} {nodes : List Node} (htrail : Trail next node nodes) :
    nodes.Nodup := by
  induction htrail with
  | last => exact List.nodup_singleton _
  | @more node target rest hlink hrest ih =>
      refine List.nodup_cons.mpr ⟨?_, ih⟩
      intro hmem
      exact (Trail.more hlink hrest).not_transGen_self
        (Relation.TransGen.head' hlink (hrest.reachable_of_mem hmem))

theorem last_link {node last : Node} {before : List Node}
    (htrail : Trail next node (before ++ [last])) : next last = none := by
  generalize hnodes : before ++ [last] = nodes at htrail
  induction htrail generalizing before with
  | @last node hnone =>
      have hlast : [last] = [node] := by
        rw [← List.nil_append [node]] at hnodes
        exact (List.append_inj' hnodes rfl).2
      rw [(List.cons.inj hlast).1]
      exact hnone
  | @more node target rest hlink hrest ih =>
      cases before with
      | nil =>
          obtain rfl := (List.cons.inj hnodes).2
          cases hrest.mem_self
      | cons first before => exact ih (List.cons.inj hnodes).2

/-- Only the last node of a trail has no link. -/
theorem eq_last {node target last : Node} {before : List Node}
    (htrail : Trail next node (before ++ [last])) (hmem : target ∈ before ++ [last])
    (hnone : next target = none) : target = last := by
  obtain ⟨rest, hrest, hsuffix⟩ := htrail.of_reachable (htrail.reachable_of_mem hmem)
  have hsingle : rest = [target] := hrest.unique (.last hnone)
  rw [hsingle] at hsuffix
  have hlast : [last] <:+ before ++ [last] := List.suffix_append _ _
  have hboth := List.suffix_of_suffix_length_le hsuffix hlast le_rfl
  exact (List.cons.inj (hboth.eq_of_length rfl)).1

/-- Without a cycle, and with finitely many nodes ahead, the trail ends. -/
theorem exists_of_acyclic {node : Node}
    (hfinite : {target | Relation.TransGen (LinksTo next) node target}.Finite)
    (hacyclic : ∀ target, Relation.ReflTransGen (LinksTo next) node target →
      ¬Relation.TransGen (LinksTo next) target target) :
    ∃ nodes, Trail next node nodes := by
  -- each link strictly shrinks the set of the nodes ahead
  induction hcount : {target | Relation.TransGen (LinksTo next) node target}.ncard
    using Nat.strong_induction_on generalizing node with
  | _ count ih =>
      rcases hnext : next node with _ | target
      · exact ⟨[node], .last hnext⟩
      · have hlink : LinksTo next node target := hnext
        have hsubset : {after | Relation.TransGen (LinksTo next) target after} ⊂
            {after | Relation.TransGen (LinksTo next) node after} := by
          refine ⟨fun after hafter => Relation.TransGen.head hlink hafter, ?_⟩
          intro hback
          exact hacyclic target (.single hlink) (hback (Relation.TransGen.single hlink))
        have hlt := Set.ncard_lt_ncard hsubset hfinite
        rw [hcount] at hlt
        obtain ⟨rest, hrest⟩ := ih _ hlt (hfinite.subset hsubset.subset)
          (fun after hafter => hacyclic after (.head hlink hafter)) rfl
        exact ⟨node :: rest, .more hnext hrest⟩

/-- The trail ends exactly when nothing on it leads back to itself. -/
theorem exists_iff_acyclic {node : Node}
    (hfinite : {target | Relation.TransGen (LinksTo next) node target}.Finite) :
    (∃ nodes, Trail next node nodes) ↔
      ∀ target, Relation.ReflTransGen (LinksTo next) node target →
        ¬Relation.TransGen (LinksTo next) target target := by
  constructor
  · intro hexists target hreach
    obtain ⟨nodes, htrail⟩ := hexists
    obtain ⟨rest, hrest, -⟩ := htrail.of_reachable hreach
    exact hrest.not_transGen_self
  · exact exists_of_acyclic hfinite

end Trail

section Map

variable {Image : Type*} {project : Node → Image} {imageNext : Image → Option Image}

/-- Trails are mapped by what commutes with the links. -/
theorem Trail.map (hnext : ∀ node, imageNext (project node) = (next node).map project)
    {node : Node} {nodes : List Node} (htrail : Trail next node nodes) :
    Trail imageNext (project node) (nodes.map project) := by
  induction htrail with
  | last hnone => exact .last (by rw [hnext, hnone]; rfl)
  | more hlink _ ih => exact .more (by rw [hnext, hlink]; rfl) ih

theorem Trail.exists_of_map (hnext : ∀ node, imageNext (project node) = (next node).map project)
    {node : Node} {images : List Image} (htrail : Trail imageNext (project node) images) :
    ∃ nodes, Trail next node nodes := by
  generalize himage : project node = image at htrail
  induction htrail generalizing node with
  | last hnone =>
      rw [← himage, hnext, Option.map_eq_none_iff] at hnone
      exact ⟨[node], .last hnone⟩
  | more hlink _ ih =>
      rw [← himage, hnext, Option.map_eq_some_iff] at hlink
      obtain ⟨target, htarget, himage⟩ := hlink
      obtain ⟨rest, hrest⟩ := ih himage
      exact ⟨node :: rest, .more htarget hrest⟩

end Map

end Links

end SsfTransmitter.Core
