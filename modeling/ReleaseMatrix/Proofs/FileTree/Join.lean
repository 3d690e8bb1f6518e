import ReleaseMatrix.Proofs.FileTree.Child

/- Where joined paths lead: a relative path goes on from where its base leads. A path leads where its
   components lead one after another, and they can be joined one after another as well. -/
namespace ReleaseMatrix.Path

open FileTree

variable {base p : Path} {c : Component} {comps : List Component} {cs : List Char} {loc : Location}

def Component.hop : Component → Hop
  | .root => .here
  | .current => .here
  | .parent => .up
  | .name s => .name s

def Component.IsStep : Component → Prop
  | .root => False
  | .current => True
  | .parent => True
  | .name s => Plain s.toList

theorem place_join (base : Path) (relative : p.isAbsolute = false) :
    placeOf (base.join p) = follow (placeOf base) (way p.text.toList) := by
  rw [place_way, place_way, way_join_relative base relative, follow, List.foldl_append]
  rfl

theorem join_absolute (base : Path) (absolute : p.isAbsolute = true) : base.join p = p := by
  rw [join, if_pos absolute]

theorem follow_here (loc : Location) (hops : List Hop) :
    follow loc (hops.filter (· != .here)) = follow loc hops := by
  induction hops generalizing loc with
  | nil => rfl
  | cons hop rest ih => cases hop <;> simpa [follow, Hop.next] using ih _

theorem pieces_hops (pieces : List (List Char)) :
    (pieces.filterMap Hop.ofPiece).filter (· != .here) =
      ((pieces.filterMap Component.ofPiece).map Component.hop).filter (· != .here) := by
  induction pieces with
  | nil => rfl
  | cons piece rest ih =>
    by_cases empty : piece = []
    · simpa [Hop.ofPiece, Component.ofPiece, empty] using ih
    · by_cases dot : piece = ['.']
      · simpa [Hop.ofPiece, Component.ofPiece, dot] using ih
      · by_cases dots : piece = ['.', '.']
        · simpa [Hop.ofPiece, Component.ofPiece, dots, Component.hop] using ih
        · simpa [Hop.ofPiece, Component.ofPiece, empty, dot, dots, Component.hop] using ih

theorem lead_hops (pieces : List (List Char)) :
    ((lead pieces).map Component.hop).filter (· != .here) = [] := by
  unfold lead
  split
  · rfl
  · split
    · rfl
    · split <;> rfl

theorem follow_components (loc : Location) (cs : List Char) :
    follow loc ((componentsOf cs).map Component.hop) = follow loc (way cs) := by
  rw [← follow_here loc (way cs), way, pieces_hops, componentsOf_pieces, ← follow_here, List.map_append,
    List.filter_append, lead_hops, List.nil_append]

theorem absolute_of_lead {rest : List (List Char)} (cut : Text.splitAll '/' cs = [] :: rest)
    (more : rest ≠ []) : isAbsoluteText cs = true := by
  cases cs with
  | nil =>
    rw [Text.splitAll] at cut
    exact absurd (List.cons.inj cut).2.symm more
  | cons c cs =>
    by_cases slash : c = '/'
    · subst slash
      rfl
    · rw [Text.splitAll, if_neg slash] at cut
      split at cut
      · cases cut
      · cases cut

theorem piece_step {piece : List Char} (whole : '/' ∉ piece) (kind : Component.ofPiece piece = some c) :
    c.IsStep ∧ c ≠ .current := by
  unfold Component.ofPiece at kind
  split at kind
  · cases kind
  · rename_i visible
    rw [not_or] at visible
    split at kind
    · cases kind
      exact ⟨trivial, Component.noConfusion⟩
    · rename_i not_up
      cases kind
      have plain : Plain (String.ofList piece).toList := by
        rw [String.toList_ofList]
        exact ⟨whole, visible.1, visible.2, not_up⟩
      exact ⟨plain, Component.noConfusion⟩

theorem component_cases (mem : c ∈ componentsOf cs) :
    c ∈ lead (Text.splitAll '/' cs) ∨ c.IsStep ∧ c ≠ .current := by
  rw [componentsOf_pieces, List.mem_append] at mem
  rcases mem with front | body
  · exact .inl front
  · obtain ⟨piece, cut, kind⟩ := List.mem_filterMap.mp body
    exact .inr (piece_step (Text.pieces_free piece cut) kind)

theorem lead_cases (mem : c ∈ lead (Text.splitAll '/' cs)) :
    c = .root ∧ isAbsoluteText cs = true ∨
      c = .current ∧ ∃ rest, Text.splitAll '/' cs = ['.'] :: rest := by
  cases pieces : Text.splitAll '/' cs with
  | nil => exact absurd pieces (Text.splitAll_ne_nil '/' cs)
  | cons first rest =>
    rw [pieces, lead] at mem
    split at mem
    · rename_i slash
      obtain ⟨rfl, more⟩ := slash
      exact .inl ⟨List.mem_singleton.mp mem, absolute_of_lead pieces more⟩
    · split at mem
      · rename_i dot
        subst dot
        exact .inr ⟨List.mem_singleton.mp mem, rest, rfl⟩
      · cases mem

theorem components_steps (relative : p.isAbsolute = false) : ∀ c ∈ p.components, c.IsStep := by
  intro c mem
  rcases component_cases mem with front | ⟨step, _⟩
  · rcases lead_cases front with ⟨_, absolute⟩ | ⟨rfl, _⟩
    · rw [isAbsolute, absolute] at relative
      cases relative
    · trivial
  · exact step

/-- A dot is a component only where it is the first piece. -/
theorem current_first (mem : .current ∈ componentsOf cs) :
    ∃ rest, Text.splitAll '/' cs = ['.'] :: rest := by
  rcases component_cases mem with front | ⟨_, other⟩
  · rcases lead_cases front with ⟨root, _⟩ | ⟨_, first⟩
    · cases root
    · exact first
  · exact absurd rfl other

theorem step_relative (step : c.IsStep) : isAbsolute ⟨c.text⟩ = false := by
  cases c with
  | root => exact step.elim
  | current => rfl
  | parent => rfl
  | name s => exact plain_relative step

theorem step_way (step : c.IsStep) : way c.text.toList = [c.hop] := by
  cases c with
  | root => exact step.elim
  | current => rfl
  | parent => rfl
  | name s => exact way_plain step

theorem way_joinAll (steps : ∀ c ∈ comps, c.IsStep) :
    way (base.joinAll comps).text.toList = way base.text.toList ++ comps.map Component.hop := by
  induction comps generalizing base with
  | nil => rw [List.map_nil, List.append_nil]; rfl
  | cons c rest ih =>
    obtain ⟨step, steps⟩ := List.forall_mem_cons.mp steps
    show way ((base.join ⟨c.text⟩).joinAll rest).text.toList = _
    rw [ih steps, way_join_relative base (step_relative step), step_way step, List.append_assoc]
    rfl

theorem absolute_head (cs : List Char) : isAbsoluteText cs = decide (cs.head? = some '/') := by
  unfold isAbsoluteText
  split
  · rfl
  · rename_i other
    symm
    rw [decide_eq_false_iff_not, List.head?_eq_some_iff]
    rintro ⟨rest, slash⟩
    exact other rest slash

theorem join_isAbsolute (base : Path) (relative : p.isAbsolute = false) :
    (base.join p).isAbsolute = base.isAbsolute := by
  have joined := join_relative base relative
  unfold isAbsolute
  generalize (base.join p).text.toList = text at joined
  cases joined with
  | alone empty => rw [empty]; exact relative
  | own_slash front slashed => rw [slashed, absolute_head, absolute_head]; cases front <;> rfl
  | new_slash some_text =>
    obtain ⟨c, rest, letters⟩ := List.exists_cons_of_ne_nil some_text
    rw [letters, absolute_head, absolute_head]
    rfl

theorem joinAll_keeps {P : Path → Prop} (start : P base)
    (keeps : ∀ c ∈ comps, ∀ p : Path, P p → P (p.join ⟨c.text⟩)) : P (base.joinAll comps) := by
  induction comps generalizing base with
  | nil => exact start
  | cons c rest ih =>
    obtain ⟨first, others⟩ := List.forall_mem_cons.mp keeps
    exact ih (first base start) others

theorem joinAll_isAbsolute (steps : ∀ c ∈ comps, c.IsStep) :
    (base.joinAll comps).isAbsolute = base.isAbsolute := by
  refine joinAll_keeps (P := fun p => p.isAbsolute = base.isAbsolute) rfl ?_
  intro c mem p same
  exact (join_isAbsolute p (step_relative (steps c mem))).trans same

end ReleaseMatrix.Path
