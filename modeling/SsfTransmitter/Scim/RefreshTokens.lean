import SsfTransmitter.Scim.TokenRotation

/-!
# The stored refresh token

What any number of refreshes and exchanges make of the refresh token that is stored.
-/

namespace SsfTransmitter.Scim

open SsfTransmitter.Core
open SsfTransmitter.Python

section Keeping

variable (runtime : TokenRuntime)

/-- A refresh token as a response should give it: not the empty string, and no NaN, which
SQLite stores as NULL. -/
def Keepable (given : Json) : Prop :=
  given ≠ .str [] ∧ ∀ literal, given = .float literal →
    ∃ text, text ≠ [] ∧ runtime.realText literal = some text

/-- A response that an action brings has a keepable refresh token, or none. -/
def BringsKeepable : TokenAction → Prop
  | .answer _ (.response response) => ∀ data, response.json = .ok (.dict data) →
    Keepable runtime (Dict.getD data "refresh_token" .null)
  | _ => True

/-- The stored refresh token is a string that is not empty. -/
def UsableRow (row : Option TokenRow) : Prop :=
  ∃ text, text ≠ [] ∧ row.bind TokenRow.refreshToken = some text

/-- A save leaves the refresh token where its response has none: no such member, null, or
the empty string.  It stores the response's own otherwise. -/
structure KeepsRow (before : Option TokenRow) (received : ReceivedTokens) (row : TokenRow) :
    Prop where
  kept : received.refreshToken = .null ∨ received.refreshToken = .str [] →
    row.refreshToken = before.bind TokenRow.refreshToken
  own : received.refreshToken ≠ .null → received.refreshToken ≠ .str [] →
    ∃ text, text ≠ [] ∧ columnText runtime received.refreshToken = some (some text) ∧
      row.refreshToken = some text

/-- Each of the saves over a row keeps the refresh token or stores its own. -/
def AllKeep : Option TokenRow → List Saved → Prop
  | _, [] => True
  | before, saved :: saves =>
    KeepsRow runtime before saved.received saved.row ∧ AllKeep (some saved.row) saves

variable {runtime} {before : Option TokenRow} {received : ReceivedTokens} {row : TokenRow}

theorem toString_ne_empty (value : ℤ) : toString value ≠ "" := by
  cases value with
  | ofNat value => exact Nat.repr_ne_empty
  | negSucc value =>
      intro hempty
      have hlength := congrArg String.length hempty
      change ("-" ++ Nat.repr (value + 1)).length = 0 at hlength
      rw [String.length_append] at hlength
      exact absurd (Nat.eq_zero_of_add_eq_zero hlength).1 (by decide)

theorem ofString_eq_nil_iff {text : String} : ofString text = [] ↔ text = "" := by
  rw [ofString, List.map_eq_nil_iff, String.toList_eq_nil_iff]

/-- What is stored of a keepable refresh token is not empty. -/
theorem columnText_of_keepable {given : Json} {stored : Option PyStr}
    (hgiven : Keepable runtime given) (hnull : given ≠ .null)
    (hstored : columnText runtime given = some stored) :
    ∃ text, text ≠ [] ∧ stored = some text := by
  cases given with
  | null => exact absurd rfl hnull
  | list _ | dict _ => cases hstored
  | bool value =>
      obtain rfl := Option.some.inj hstored
      cases value with
      | true => exact ⟨_, by decide, rfl⟩
      | false => exact ⟨_, by decide, rfl⟩
  | int value =>
      rw [columnText] at hstored
      split_ifs at hstored
      obtain rfl := Option.some.inj hstored
      exact ⟨_, fun hempty => toString_ne_empty value (ofString_eq_nil_iff.mp hempty), rfl⟩
  | float literal =>
      obtain ⟨text, hnonempty, htext⟩ := hgiven.2 literal rfl
      obtain rfl := Option.some.inj hstored
      exact ⟨text, hnonempty, htext⟩
  | str text =>
      rw [columnText] at hstored
      split_ifs at hstored
      obtain rfl := Option.some.inj hstored
      exact ⟨text, fun hempty => hgiven.1 (congrArg Json.str hempty), rfl⟩

theorem Stores.keeps (hstores : Stores runtime before received row)
    (hgiven : Keepable runtime received.refreshToken) : KeepsRow runtime before received row := by
  obtain ⟨stored, hcolumn, hrow⟩ := hstores.refreshToken
  constructor
  case kept =>
    rintro (hnull | hempty)
    · rw [hnull] at hcolumn
      obtain rfl := Option.some.inj hcolumn
      exact hrow
    · exact absurd hempty hgiven.1
  case own =>
    intro hnull _
    obtain ⟨text, hnonempty, rfl⟩ := columnText_of_keepable hgiven hnull hcolumn
    exact ⟨text, hnonempty, hcolumn, hrow⟩

theorem KeepsRow.usable (hkeeps : KeepsRow runtime before received row)
    (hbefore : UsableRow before) : UsableRow (some row) := by
  obtain ⟨text, hnonempty, htext⟩ := hbefore
  by_cases hnone : received.refreshToken = .null ∨ received.refreshToken = .str []
  · exact ⟨text, hnonempty, (hkeeps.kept hnone).trans htext⟩
  · obtain ⟨hnull, hempty⟩ := not_or.mp hnone
    obtain ⟨own, hown, -, hrow⟩ := hkeeps.own hnull hempty
    exact ⟨own, hown, hrow⟩

theorem Successive.allKeep {saves : List Saved} {last : Option TokenRow}
    (hsaves : Successive runtime before saves last)
    (hgiven : ∀ saved ∈ saves, Keepable runtime saved.received.refreshToken) :
    AllKeep runtime before saves := by
  induction saves generalizing before with
  | nil => trivial
  | cons saved saves ih =>
      exact ⟨hsaves.1.keeps (hgiven saved List.mem_cons_self),
        ih hsaves.2 fun other hother => hgiven other (List.mem_cons_of_mem _ hother)⟩

/-- Once usable, usable after every later save. -/
theorem AllKeep.usable {saves : List Saved} (hkeep : AllKeep runtime before saves) :
    (before :: saves.map fun saved => some saved.row).Pairwise
      fun earlier later => UsableRow earlier → UsableRow later := by
  induction saves generalizing before with
  | nil => exact List.pairwise_singleton _ _
  | cons saved saves ih =>
      have hrest := ih hkeep.2
      refine List.pairwise_cons.mpr ⟨fun later hlater hbefore => ?_, hrest⟩
      have hfirst := hkeep.1.usable hbefore
      rcases List.mem_cons.mp hlater with rfl | htail
      · exact hfirst
      · exact (List.pairwise_cons.mp hrest).1 later htail hfirst

/-! ## Runs -/

/-- Tokens that are to be saved come from a JSON object. -/
theorem exists_data_of_answered {request : TokenRequest} {outcome : Outcome}
    (hanswered : answered runtime request outcome = .ok received) :
    ∃ response data, outcome = .response response ∧ response.json = .ok (.dict data) ∧
      received.refreshToken = Dict.getD data "refresh_token" .null := by
  cases request with
  | refreshToken _ =>
      rw [answered, refreshAnswered.eq_def] at hanswered
      split at hanswered
      · cases hanswered
      · cases hanswered
      · next response =>
        split_ifs at hanswered
        split at hanswered
        · cases hanswered
        · next data hjson =>
          split at hanswered
          · split_ifs at hanswered
            split at hanswered
            · obtain rfl := Except.ok.inj hanswered
              exact ⟨response, data, rfl, hjson, rfl⟩
            · cases hanswered
          · cases hanswered
        · cases hanswered
  | authorizationCode _ =>
      rw [answered, exchangeAnswered.eq_def] at hanswered
      split at hanswered
      · cases hanswered
      · cases hanswered
      · next response =>
        split_ifs at hanswered
        split at hanswered
        · next data hjson =>
          split at hanswered
          · dsimp only at hanswered
            split_ifs at hanswered
            obtain rfl := Except.ok.inj hanswered
            exact ⟨response, data, rfl, hjson, rfl⟩
          · cases hanswered
        · cases hanswered

/-- What is being saved and what was saved came with keepable refresh tokens. -/
structure Gathered (runtime : TokenRuntime) (world : TokenWorld) : Prop where
  pending : ∀ call request version number received,
    world.stages call = .saving request version number received →
    Keepable runtime received.refreshToken
  saved : ∀ saved ∈ world.saves, Keepable runtime saved.received.refreshToken

variable {world next : TokenWorld}

/-- A step that moves one call and saves nothing. -/
theorem Gathered.moved (hworld : Gathered runtime world) {call : ℕ} {stage : TokenStage}
    (hstages : next.stages = Function.update world.stages call stage)
    (hstage : ∀ request version number received,
      stage = .saving request version number received → Keepable runtime received.refreshToken)
    (hsaves : next.saves = world.saves) : Gathered runtime next where
  pending other request version number received hother := by
    rw [hstages] at hother
    by_cases hcall : other = call
    · subst hcall
      rw [Function.update_self] at hother
      exact hstage _ _ _ _ hother
    · rw [Function.update_of_ne hcall] at hother
      exact hworld.pending _ _ _ _ _ hother
  saved := by
    rw [hsaves]
    exact hworld.saved

theorem Gathered.step (hworld : Gathered runtime world) {action : TokenAction}
    (hbrings : BringsKeepable runtime action)
    (hstep : world.step runtime action = some next) : Gathered runtime next := by
  cases action with
  | call call grant =>
      simp only [TokenWorld.step] at hstep
      split at hstep
      · obtain rfl := Option.some.inj hstep
        refine hworld.moved rfl (fun _ _ _ _ hsaving => ?_) rfl
        split_ifs at hsaving
      · cases hstep
  | handOver call =>
      simp only [TokenWorld.step] at hstep
      split at hstep
      · obtain ⟨lock, -, rfl⟩ := Option.map_eq_some_iff.mp hstep
        exact hworld.moved rfl (by rintro _ _ _ _ ⟨⟩) rfl
      · cases hstep
  | withdraw call =>
      simp only [TokenWorld.step] at hstep
      split at hstep
      · obtain rfl := Option.some.inj hstep
        exact hworld.moved rfl (by rintro _ _ _ _ ⟨⟩) rfl
      · cases hstep
  | load call =>
      simp only [TokenWorld.step] at hstep
      split at hstep
      · obtain rfl := Option.some.inj hstep
        exact hworld.moved rfl (by rintro _ _ _ _ ⟨⟩) rfl
      · cases hstep
  | check call now =>
      simp only [TokenWorld.step] at hstep
      split at hstep
      · obtain rfl := Option.some.inj hstep
        rw [TokenWorld.checkLoaded]
        split
        · exact hworld.moved rfl (by rintro _ _ _ _ ⟨⟩) rfl
        · exact hworld.moved rfl (by rintro _ _ _ _ ⟨⟩) rfl
      · cases hstep
  | send call =>
      simp only [TokenWorld.step] at hstep
      split at hstep
      · obtain rfl := Option.some.inj hstep
        exact hworld.moved rfl (by rintro _ _ _ _ ⟨⟩) rfl
      · cases hstep
  | answer call outcome =>
      simp only [TokenWorld.step] at hstep
      split at hstep
      · obtain rfl := Option.some.inj hstep
        rw [TokenWorld.receive]
        split
        · exact hworld.moved rfl (by rintro _ _ _ _ ⟨⟩) rfl
        · next received hanswered =>
          obtain ⟨response, data, rfl, hjson, hgiven⟩ := exists_data_of_answered hanswered
          refine hworld.moved rfl (fun _ _ _ _ hsaving => ?_) rfl
          obtain ⟨-, -, -, rfl⟩ := TokenStage.saving.inj hsaving
          rw [hgiven]
          exact hbrings data hjson
      · cases hstep
  | save call now =>
      simp only [TokenWorld.step] at hstep
      split at hstep
      · next request version number received hstage =>
        obtain rfl := Option.some.inj hstep
        rw [TokenWorld.saveReceived]
        split
        · exact hworld.moved rfl (by rintro _ _ _ _ ⟨⟩) rfl
        · next row hrow =>
          have hplaced : Gathered runtime (world.place call
              (.closing (exitSaved request received))) :=
            hworld.moved rfl (by rintro _ _ _ _ ⟨⟩) rfl
          refine ⟨hplaced.pending, fun saved hsaved => ?_⟩
          rcases List.mem_append.mp hsaved with hold | hnew
          · exact hworld.saved saved hold
          · obtain rfl := List.mem_singleton.mp hnew
            exact hworld.pending _ _ _ _ _ hstage
      · cases hstep
  | release call =>
      simp only [TokenWorld.step] at hstep
      split at hstep
      · obtain rfl := Option.some.inj hstep
        exact hworld.moved rfl (by rintro _ _ _ _ ⟨⟩) rfl
      · cases hstep

theorem Successive.last_mem {saves : List Saved} {last : Option TokenRow}
    (hsaves : Successive runtime before saves last) :
    last ∈ before :: saves.map fun saved => some saved.row := by
  induction saves generalizing before with
  | nil => exact List.mem_singleton.mpr hsaves
  | cons saved saves ih => exact List.mem_cons_of_mem _ (ih hsaves.2)

/-- In a run whose responses all have keepable refresh tokens or none, each save keeps the
stored refresh token or stores its response's own, and one that is usable stays so. -/
theorem refreshToken_kept {first : TokenWorld}
    (hfirst : (tokenRotation runtime).initial first)
    (hpath : (tokenRotation runtime).Path (BringsKeepable runtime) first world) :
    AllKeep runtime first.row world.saves ∧
      (first.row :: world.saves.map fun saved => some saved.row).Pairwise
        (fun earlier later => UsableRow earlier → UsableRow later) ∧
      (UsableRow first.row → UsableRow world.row) := by
  have hrecorded : Recorded runtime first.row world := by
    refine hpath.preserves (fun source action target hsource _ hstep => hsource.step hstep) ?_
    obtain ⟨row, rfl⟩ := hfirst
    exact ⟨fun _ => trivial, rfl, rfl, .nil, by simp⟩
  have hgathered : Gathered runtime world := by
    refine hpath.preserves (fun source action target hsource hbrings hstep =>
      hsource.step hbrings hstep) ?_
    obtain ⟨row, rfl⟩ := hfirst
    exact ⟨by rintro _ _ _ _ _ ⟨⟩, by simp⟩
  have hkeep := hrecorded.successive.allKeep hgathered.saved
  refine ⟨hkeep, hkeep.usable, fun husable => ?_⟩
  rcases List.mem_cons.mp hrecorded.successive.last_mem with hrow | hrow
  · rw [hrow]
    exact husable
  · exact (List.pairwise_cons.mp hkeep.usable).1 _ hrow husable

end Keeping

/-! ## Runs of one refresh -/

section Sample

/-- A refresh of the expired token, up to the save. -/
def sampleRefresh (refreshToken : PyStr) : List TokenAction :=
  [.call 0 .refreshToken, .load 0, .check 0 100,
    .answer 0 (tokenResponse "refreshed" refreshToken), .save 0 101]

theorem bringsKeepable_sampleRefresh {refreshToken : PyStr} (hnonempty : refreshToken ≠ []) :
    ∀ action ∈ sampleRefresh refreshToken, BringsKeepable sampleRuntime action := by
  simp only [sampleRefresh, List.forall_mem_cons]
  refine ⟨trivial, trivial, trivial, ?_, trivial, List.forall_mem_nil _⟩
  intro data hdata
  obtain rfl := Json.dict.inj (Except.ok.inj hdata)
  exact ⟨fun hempty => hnonempty (Json.str.inj hempty), by rintro _ ⟨⟩⟩

theorem refreshToken_kept_sample :
    ∃ world, (tokenRotation sampleRuntime).run ⟨.free, some expiredRow, fun _ => .idle, 0, []⟩
        (sampleRefresh "rotated") = some world ∧
      world.row = some ⟨"refreshed", some "rotated", 3641, 101⟩ ∧ UsableRow world.row := by
  have hsample : (((tokenRotation sampleRuntime).run
      ⟨.free, some expiredRow, fun _ => .idle, 0, []⟩ (sampleRefresh "rotated")).map
        TokenWorld.row) = some (some ⟨"refreshed", some "rotated", 3641, 101⟩) := by
    decide +kernel
  obtain ⟨world, hrun, hrow⟩ := Option.map_eq_some_iff.mp hsample
  have hpath := TransitionSystem.path_of_run (bringsKeepable_sampleRefresh (by decide)) hrun
  exact ⟨world, hrun, hrow, (refreshToken_kept ⟨_, rfl⟩ hpath).2.2 ⟨_, by decide, rfl⟩⟩

/-- An empty refresh token replaces one that is usable. -/
theorem refreshToken_lost :
    ¬ ∀ first world : TokenWorld, (tokenRotation sampleRuntime).initial first →
      (tokenRotation sampleRuntime).Path (fun _ => True) first world →
      UsableRow first.row → UsableRow world.row := by
  intro hclaim
  have hsample : (((tokenRotation sampleRuntime).run
      ⟨.free, some expiredRow, fun _ => .idle, 0, []⟩ (sampleRefresh "")).map
        TokenWorld.row) = some (some ⟨"refreshed", some "", 3641, 101⟩) := by
    decide +kernel
  obtain ⟨world, hrun, hrow⟩ := Option.map_eq_some_iff.mp hsample
  obtain ⟨text, hnonempty, htext⟩ := hclaim _ world ⟨_, rfl⟩
    (TransitionSystem.path_of_run (fun _ _ => trivial) hrun) ⟨_, by decide, rfl⟩
  rw [hrow] at htext
  exact hnonempty (Option.some.inj htext).symm

end Sample

end SsfTransmitter.Scim
