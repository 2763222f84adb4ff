import Letterform.Proofs.TrueType.Flattening
import Mathlib.Data.List.Chain
import Mathlib.Logic.Relation

/-!
How deep components may lie. Loading ends for every glyph, also for one that contains itself,
since it gives up below the depth limit. A limit that is not reached makes no difference, and a
glyph is loaded exactly if its components lie no deeper than the limit and all glyphs among them
can be decoded.
-/

namespace Letterform.TrueType

variable {α : Type} [Coordinate α]

namespace Outlines

variable {outlines : Outlines}

def limited (outlines : Outlines) (limit : Nat) : Outlines :=
  { outlines with depthLimit := limit }

/-! Loading from the outermost glyph inward. -/

/-- What is to be loaded: a glyph, or the components of a glyph that are left. -/
inductive LoadTask
  | glyph (id : GlyphId)
  | components (id : GlyphId) (left : List (Except ReadError Component))

/-- How loading goes on, step by step. The depth counts up from the outermost glyph, and nothing
bounds it but the check against the limit. -/
inductive Loads (outlines : Outlines) :
    (depth : Nat) → LoadTask → GlyphPoints α → Except OutlineFault (GlyphPoints α) → Prop
  | tooDeep {depth : Nat} {id : GlyphId} {loaded : GlyphPoints α}
      (deep : outlines.depthLimit < depth) :
      Loads outlines depth (.glyph id) loaded (.error (.recursionLimit id outlines.depthLimit))
  | unreadable {depth : Nat} {id : GlyphId} {loaded : GlyphPoints α} {fault : OutlineFault}
      (within : depth ≤ outlines.depthLimit) (found : outlines.glyph? id = .error fault) :
      Loads outlines depth (.glyph id) loaded (.error fault)
  | empty {depth : Nat} {id : GlyphId} {loaded : GlyphPoints α}
      (within : depth ≤ outlines.depthLimit) (found : outlines.glyph? id = .ok none) :
      Loads outlines depth (.glyph id) loaded (.ok loaded)
  | simple {depth : Nat} {id : GlyphId} {loaded : GlyphPoints α} {glyph : SimpleGlyph}
      (within : depth ≤ outlines.depthLimit)
      (found : outlines.glyph? id = .ok (some (.simple glyph))) :
      Loads outlines depth (.glyph id) loaded (appendSimple id glyph loaded)
  | composite {depth : Nat} {id : GlyphId} {loaded : GlyphPoints α} {glyph : CompositeGlyph}
      {result : Except OutlineFault (GlyphPoints α)} (within : depth ≤ outlines.depthLimit)
      (found : outlines.glyph? id = .ok (some (.composite glyph)))
      (all : Loads outlines depth (.components id glyph.components) loaded result) :
      Loads outlines depth (.glyph id) loaded result
  | done {depth : Nat} {id : GlyphId} {loaded : GlyphPoints α} :
      Loads outlines depth (.components id []) loaded (.ok loaded)
  | cutShort {depth : Nat} {id : GlyphId} {loaded : GlyphPoints α} {error : ReadError}
      {left : List (Except ReadError Component)} :
      Loads outlines depth (.components id (.error error :: left)) loaded (.error (.read id error))
  | unplaced {depth : Nat} {id : GlyphId} {loaded : GlyphPoints α} {component : Component}
      {left : List (Except ReadError Component)} {fault : OutlineFault}
      (placed : component.place (α := α) id = .error fault) :
      Loads outlines depth (.components id (.ok component :: left)) loaded (.error fault)
  | failed {depth : Nat} {id : GlyphId} {loaded : GlyphPoints α} {component : Component}
      {left : List (Except ReadError Component)} {place : Point α → Point α} {fault : OutlineFault}
      (placed : component.place id = .ok place)
      (inner : Loads outlines (depth + 1) (.glyph component.glyph) loaded (.error fault)) :
      Loads outlines depth (.components id (.ok component :: left)) loaded (.error fault)
  | next {depth : Nat} {id : GlyphId} {loaded whole : GlyphPoints α} {component : Component}
      {left : List (Except ReadError Component)} {place : Point α → Point α}
      {result : Except OutlineFault (GlyphPoints α)} (placed : component.place id = .ok place)
      (inner : Loads outlines (depth + 1) (.glyph component.glyph) loaded (.ok whole))
      (others : Loads outlines depth (.components id left)
        (whole.placeFrom place loaded.points.size) result) :
      Loads outlines depth (.components id (.ok component :: left)) loaded result

def levelsAt (outlines : Outlines) (depth : Nat) : Nat := outlines.depthLimit + 1 - depth

def perform (outlines : Outlines) (depth : Nat) :
    LoadTask → GlyphPoints α → Except OutlineFault (GlyphPoints α)
  | .glyph id, loaded => outlines.append (outlines.levelsAt depth) id loaded
  | .components id left, loaded =>
      left.foldlM (appendComponent (outlines.append (outlines.levelsAt (depth + 1))) id) loaded

theorem levelsAt_of_le {depth : Nat} (within : depth ≤ outlines.depthLimit) :
    outlines.levelsAt depth = outlines.levelsAt (depth + 1) + 1 := by
  rw [levelsAt, levelsAt]
  omega

theorem perform_glyph {depth : Nat} (within : depth ≤ outlines.depthLimit) (id : GlyphId)
    (loaded : GlyphPoints α) :
    outlines.perform depth (.glyph id) loaded = (do
      match ← outlines.glyph? id with
      | none => return loaded
      | some (.simple glyph) => appendSimple id glyph loaded
      | some (.composite glyph) =>
          outlines.perform depth (.components id glyph.components) loaded) := by
  rw [perform, levelsAt_of_le within]
  rfl

theorem perform_component (depth : Nat) (id : GlyphId) (component : Component)
    (left : List (Except ReadError Component)) (loaded : GlyphPoints α) :
    outlines.perform depth (.components id (.ok component :: left)) loaded = (do
      let place ← component.place id
      let whole ← outlines.perform (depth + 1) (.glyph component.glyph) loaded
      outlines.perform depth (.components id left) (whole.placeFrom place loaded.points.size)) := by
  simp only [perform, List.foldlM_cons, appendComponent, bind_assoc, pure_bind]
  rfl

theorem Loads.result_eq {depth : Nat} {task : LoadTask} {loaded : GlyphPoints α}
    {result : Except OutlineFault (GlyphPoints α)} (loads : outlines.Loads depth task loaded result) :
    outlines.perform depth task loaded = result := by
  induction loads with
  | tooDeep deep =>
      rw [perform, levelsAt, Nat.sub_eq_zero_of_le deep]
      rfl
  | unreadable within found | empty within found | simple within found =>
      rw [perform_glyph within, found]
      rfl
  | composite within found _ induction =>
      rw [perform_glyph within, found]
      exact induction
  | done | cutShort => rfl
  | unplaced placed =>
      rw [perform_component, placed]
      rfl
  | failed placed _ induction =>
      rw [perform_component, placed, induction]
      rfl
  | next placed _ _ inductionInner inductionOthers =>
      rw [perform_component, placed, inductionInner]
      exact inductionOthers

theorem loads_components {depth : Nat}
    (inner : ∀ id (loaded : GlyphPoints α),
      outlines.Loads (depth + 1) (.glyph id) loaded (outlines.perform (depth + 1) (.glyph id) loaded))
    (id : GlyphId) (left : List (Except ReadError Component)) (loaded : GlyphPoints α) :
    outlines.Loads depth (.components id left) loaded
      (outlines.perform depth (.components id left) loaded) := by
  induction left generalizing loaded with
  | nil => exact .done
  | cons entry left induction =>
      cases entry with
      | error error => exact .cutShort
      | ok component =>
          have innerLoads := inner component.glyph loaded
          rw [perform_component]
          cases placed : component.place (α := α) id with
          | error fault => exact .unplaced placed
          | ok place =>
              generalize outlines.perform (depth + 1) (.glyph component.glyph) loaded = result
                at innerLoads
              cases result with
              | error fault => exact .failed placed innerLoads
              | ok whole => exact .next placed innerLoads (induction _)

theorem loads_glyph {levels depth : Nat} (reaches : depth + levels = outlines.depthLimit + 1)
    (id : GlyphId) (loaded : GlyphPoints α) :
    outlines.Loads depth (.glyph id) loaded (outlines.perform depth (.glyph id) loaded) := by
  induction levels generalizing depth id loaded with
  | zero =>
      have deep : outlines.depthLimit < depth := by omega
      have result : outlines.perform depth (.glyph id) loaded =
          .error (.recursionLimit id outlines.depthLimit) :=
        (Loads.tooDeep deep).result_eq
      rw [result]
      exact .tooDeep deep
  | succ levels induction =>
      have within : depth ≤ outlines.depthLimit := by omega
      rw [perform_glyph within]
      cases found : outlines.glyph? id with
      | error fault => exact .unreadable within found
      | ok read =>
          match read, found with
          | none, found => exact .empty within found
          | some (.simple glyph), found => exact .simple within found
          | some (.composite glyph), found =>
              exact .composite within found
                (loads_components (induction (by omega)) id glyph.components loaded)

/-- Loading comes to an end, with one result. -/
theorem loads_iff (id : GlyphId) (result : Except OutlineFault (GlyphPoints α)) :
    outlines.Loads 0 (.glyph id) {} result ↔ outlines.points id = result := by
  constructor
  · exact Loads.result_eq
  · rintro rfl
    exact loads_glyph (Nat.zero_add _) id {}

/-! Limits that are not reached. -/

def HitsLimit {β : Type} (result : Except OutlineFault β) : Prop :=
  ∃ id limit, result = .error (.recursionLimit id limit)

theorem bind_eq_of_agrees {β γ : Type} {first other : Except OutlineFault β}
    {next after : β → Except OutlineFault γ} (agrees : ¬HitsLimit first → other = first)
    (agreesNext : ∀ value, ¬HitsLimit (next value) → after value = next value)
    (notReached : ¬HitsLimit (first >>= next)) : other >>= after = first >>= next := by
  cases first with
  | error fault =>
      have sameFault : ¬HitsLimit (.error fault : Except OutlineFault β) := by
        rintro ⟨id, limit, equal⟩
        exact notReached ⟨id, limit, congrArg Except.error (Except.error.inj equal)⟩
      rw [agrees sameFault]
      rfl
  | ok value =>
      have found : ¬HitsLimit (.ok value : Except OutlineFault β) := by
        rintro ⟨_, _, impossible⟩
        cases impossible
      rw [agrees found]
      exact agreesNext value notReached

/-- One way to load glyphs gives the same as another one wherever that does not hit its limit. -/
def Agrees (other append : GlyphId → GlyphPoints α → Except OutlineFault (GlyphPoints α)) : Prop :=
  ∀ id loaded, ¬HitsLimit (append id loaded) → other id loaded = append id loaded

theorem Agrees.foldlM_appendComponent
    {other append : GlyphId → GlyphPoints α → Except OutlineFault (GlyphPoints α)}
    (agrees : Agrees other append) {id : GlyphId} {components : List (Except ReadError Component)}
    {loaded : GlyphPoints α}
    (notReached : ¬HitsLimit (components.foldlM (appendComponent append id) loaded)) :
    components.foldlM (appendComponent other id) loaded =
      components.foldlM (appendComponent append id) loaded := by
  induction components generalizing loaded with
  | nil => rfl
  | cons entry components induction =>
      rw [List.foldlM_cons] at notReached ⊢
      refine bind_eq_of_agrees ?_ (fun _ => induction) notReached
      refine bind_eq_of_agrees (fun _ => rfl) fun component => ?_
      refine bind_eq_of_agrees (fun _ => rfl) fun place => ?_
      exact bind_eq_of_agrees (agrees component.glyph loaded) fun _ _ => rfl

/-- More levels make no difference where fewer are enough. -/
theorem agrees_of_le {limit larger levels more : Nat} (bound : levels ≤ more) :
    Agrees (α := α) ((outlines.limited larger).append more) ((outlines.limited limit).append levels) := by
  induction levels generalizing more with
  | zero =>
      intro id loaded notReached
      exact absurd ⟨id, limit, rfl⟩ notReached
  | succ levels induction =>
      rcases Nat.exists_eq_add_of_le' (Nat.zero_lt_of_lt bound) with ⟨more, rfl⟩
      intro id loaded notReached
      refine bind_eq_of_agrees (fun _ => rfl) (fun found => ?_) notReached
      match found with
      | none | some (.simple glyph) => exact fun _ => rfl
      | some (.composite glyph) =>
          exact (induction (Nat.le_of_succ_le_succ bound)).foldlM_appendComponent

/-! References. -/

def Refers (outlines : Outlines) (id other : GlyphId) : Prop :=
  ∃ glyph component, outlines.glyph? id = .ok (some (.composite glyph)) ∧
    .ok component ∈ glyph.components ∧ component.glyph = other

/-- A glyph can be read, its points can be decoded, and its components are placed by offsets. -/
inductive Decodable (outlines : Outlines) (id : GlyphId) : Prop
  | empty (found : outlines.glyph? id = .ok none)
  | simple {glyph : SimpleGlyph} {points : List CurvePoint}
      (found : outlines.glyph? id = .ok (some (.simple glyph)))
      (ascending : glyph.hasAscendingEnds = true) (decoded : glyph.points = .ok points)
  | composite {glyph : CompositeGlyph}
      (found : outlines.glyph? id = .ok (some (.composite glyph)))
      (placed : ∀ entry ∈ glyph.components, ∃ component x y,
        entry = .ok component ∧ component.anchor = .offset x y)

theorem decodable_limited {limit : Nat} {id : GlyphId} :
    (outlines.limited limit).Decodable id ↔ outlines.Decodable id := by
  constructor
  · rintro (found | ⟨found, ascending, decoded⟩ | ⟨found, placed⟩)
    · exact .empty found
    · exact .simple found ascending decoded
    · exact .composite found placed
  · rintro (found | ⟨found, ascending, decoded⟩ | ⟨found, placed⟩)
    · exact .empty found
    · exact .simple found ascending decoded
    · exact .composite found placed

/-! What a loaded glyph has among its components. -/

theorem appendComponent_mem
    {append : GlyphId → GlyphPoints α → Except OutlineFault (GlyphPoints α)} {id : GlyphId}
    {components : List (Except ReadError Component)} {loaded out : GlyphPoints α}
    (appended : components.foldlM (appendComponent append id) loaded = .ok out)
    {entry : Except ReadError Component} (member : entry ∈ components) :
    ∃ component x y before after, entry = .ok component ∧ component.anchor = .offset x y ∧
      append component.glyph before = .ok after := by
  induction components generalizing loaded with
  | nil => cases member
  | cons first components induction =>
      rw [List.foldlM_cons] at appended
      rcases exists_ok_of_bind appended with ⟨middle, step, rest⟩
      rcases List.mem_cons.mp member with rfl | member
      · rcases exists_ok_of_bind step with ⟨component, lifted, step⟩
        rcases exists_ok_of_bind step with ⟨place, placed, step⟩
        rcases exists_ok_of_bind step with ⟨whole, inner, -⟩
        rcases image_of_place placed with ⟨offset, anchored, -⟩
        exact ⟨component, offset.x, offset.y, loaded, whole, ok_of_liftRead lifted, anchored, inner⟩
      · exact induction rest member

theorem append_of_refers {levels : Nat} {id other : GlyphId} {loaded out : GlyphPoints α}
    (appended : outlines.append levels id loaded = .ok out) (refers : outlines.Refers id other) :
    ∃ fewer before after, levels = fewer + 1 ∧
      outlines.append (α := α) fewer other before = .ok after := by
  rcases refers with ⟨glyph, component, found, member, rfl⟩
  cases levels with
  | zero => cases appended
  | succ levels =>
      simp only [append, found] at appended
      rcases appendComponent_mem appended member with
        ⟨_, _, _, before, after, same, -, inner⟩
      cases same
      exact ⟨levels, before, after, rfl, inner⟩

theorem decodable_of_append {levels : Nat} {id : GlyphId} {loaded out : GlyphPoints α}
    (appended : outlines.append levels id loaded = .ok out) : outlines.Decodable id := by
  cases levels with
  | zero => cases appended
  | succ levels =>
      rcases exists_ok_of_bind appended with ⟨found, read, appended⟩
      match found, read with
      | none, read => exact .empty read
      | some (.simple glyph), read =>
          rcases appendSimple_ok appended with ⟨points, decoded, -⟩
          exact .simple read (hasAscendingEnds_of_appendSimple appended) decoded
      | some (.composite glyph), read =>
          refine .composite read fun entry member => ?_
          rcases appendComponent_mem appended member with
            ⟨component, x, y, _, _, same, anchored, -⟩
          exact ⟨component, x, y, same, anchored⟩

theorem length_lt_of_append {levels : Nat} {id : GlyphId} {loaded out : GlyphPoints α}
    (appended : outlines.append levels id loaded = .ok out) {chain : List GlyphId}
    (linked : (id :: chain).IsChain outlines.Refers) : chain.length < levels := by
  induction chain generalizing levels id loaded out with
  | nil =>
      cases levels with
      | zero => cases appended
      | succ levels => exact Nat.succ_pos levels
  | cons other chain induction =>
      rw [List.isChain_cons_cons] at linked
      rcases append_of_refers appended linked.1 with ⟨fewer, _, _, rfl, inner⟩
      exact Nat.succ_lt_succ (induction inner linked.2)

theorem append_of_reaches {levels : Nat} {id other : GlyphId} {loaded out : GlyphPoints α}
    (appended : outlines.append levels id loaded = .ok out)
    (reaches : Relation.ReflTransGen outlines.Refers id other) :
    ∃ fewer before after, fewer ≤ levels ∧
      outlines.append (α := α) fewer other before = .ok after := by
  induction reaches with
  | refl => exact ⟨levels, loaded, out, Nat.le_refl levels, appended⟩
  | tail _ refers induction =>
      rcases induction with ⟨some, _, _, bound, inner⟩
      rcases append_of_refers inner refers with ⟨fewer, before, after, rfl, deeper⟩
      exact ⟨fewer, before, after, Nat.le_of_succ_le bound, deeper⟩

/-- A glyph that is among its own components would have to be loaded with fewer and fewer levels. -/
theorem not_append_of_cycle {levels : Nat} {id : GlyphId}
    (cycle : Relation.TransGen outlines.Refers id id) (loaded out : GlyphPoints α) :
    outlines.append levels id loaded ≠ .ok out := by
  induction levels using Nat.strongRecOn generalizing loaded out with
  | ind levels induction =>
      intro appended
      rcases Relation.TransGen.head'_iff.mp cycle with ⟨other, refers, reaches⟩
      rcases append_of_refers appended refers with ⟨some, _, _, rfl, inner⟩
      rcases append_of_reaches inner reaches with ⟨fewer, before, after, bound, again⟩
      exact induction fewer (Nat.lt_succ_of_le bound) before after again

/-! Glyphs that can be loaded. -/

theorem appendSimple_of_decoded {id : GlyphId} {glyph : SimpleGlyph} {points : List CurvePoint}
    (ascending : glyph.hasAscendingEnds = true) (decoded : glyph.points = .ok points)
    (loaded : GlyphPoints α) : ∃ out, appendSimple id glyph loaded = .ok out := by
  rw [appendSimple, ascending, decoded]
  exact ⟨_, rfl⟩

theorem foldlM_appendComponent_of_placed
    {append : GlyphId → GlyphPoints α → Except OutlineFault (GlyphPoints α)} {id : GlyphId}
    {components : List (Except ReadError Component)}
    (placed : ∀ entry ∈ components, ∃ component x y,
      entry = .ok component ∧ component.anchor = .offset x y)
    (inner : ∀ component, .ok component ∈ components →
      ∀ loaded, ∃ out, append component.glyph loaded = .ok out) (loaded : GlyphPoints α) :
    ∃ out, components.foldlM (appendComponent append id) loaded = .ok out := by
  induction components generalizing loaded with
  | nil => exact ⟨loaded, rfl⟩
  | cons entry components induction =>
      rw [List.forall_mem_cons] at placed
      rcases placed with ⟨⟨component, x, y, rfl, anchored⟩, others⟩
      rcases inner component (List.mem_cons_self ..) loaded with ⟨whole, appended⟩
      rcases induction others (fun component member => inner component (List.mem_cons_of_mem _ member))
        (whole.placeFrom (component.transform.place
          ⟨Coordinate.ofInt x.toInt, Coordinate.ofInt y.toInt⟩) loaded.points.size) with ⟨out, rest⟩
      refine ⟨out, ?_⟩
      simp only [List.foldlM_cons, appendComponent, liftRead, Component.place, anchored, appended,
        bind, Except.bind, pure, Except.pure]
      exact rest

/-- Enough levels for every chain of references are enough for a glyph, if all glyphs on the
chains can be decoded. -/
theorem append_of_decodable {levels : Nat} {id : GlyphId}
    (bounded : ∀ chain, (id :: chain).IsChain outlines.Refers → chain.length < levels)
    (decodable : ∀ other, Relation.ReflTransGen outlines.Refers id other → outlines.Decodable other)
    (loaded : GlyphPoints α) : ∃ out, outlines.append levels id loaded = .ok out := by
  induction levels generalizing id loaded with
  | zero => exact absurd (bounded [] (.singleton id)) (Nat.not_lt_zero _)
  | succ levels induction =>
      cases decodable id .refl with
      | empty found =>
          rw [append, found]
          exact ⟨loaded, rfl⟩
      | simple found ascending decoded =>
          rw [append, found]
          exact appendSimple_of_decoded ascending decoded loaded
      | @composite glyph found placed =>
          rw [append, found]
          refine foldlM_appendComponent_of_placed placed (fun component member loaded => ?_) loaded
          have refers : outlines.Refers id component.glyph := ⟨glyph, component, found, member, rfl⟩
          refine induction (fun chain linked => ?_) (fun other reaches => ?_) loaded
          · exact Nat.lt_of_succ_lt_succ
              (bounded (component.glyph :: chain) (.cons_cons refers linked))
          · exact decodable other (.head refers reaches)

/-! Depth limits. -/

/-- Loading ends with one result. A limit that is not reached does not show in it. A glyph is
loaded if no chain of references has more links than the limit says, which it may well have
exactly, and all glyphs on the chains can be decoded, and only then; so no limit lets a glyph be
loaded that is among its own components. -/
theorem points_depth {limit larger : Nat} (bound : limit ≤ larger) (id : GlyphId) :
    (∀ result : Except OutlineFault (GlyphPoints α),
      (outlines.limited limit).Loads 0 (.glyph id) {} result ↔
        (outlines.limited limit).points id = result) ∧
    (¬HitsLimit ((outlines.limited limit).points (α := α) id) →
      (outlines.limited larger).points (α := α) id = (outlines.limited limit).points id) ∧
    ((∃ out, (outlines.limited limit).points (α := α) id = .ok out) ↔
      (∀ chain, (id :: chain).IsChain outlines.Refers → chain.length ≤ limit) ∧
        ∀ other, Relation.ReflTransGen outlines.Refers id other → outlines.Decodable other) ∧
    (Relation.TransGen outlines.Refers id id →
      ∀ any out, (outlines.limited any).points (α := α) id ≠ .ok out) := by
  refine ⟨loads_iff id, ?_, ⟨?_, ?_⟩, fun cycle any out => ?_⟩
  · exact agrees_of_le (Nat.succ_le_succ bound) id {}
  · rintro ⟨out, loaded⟩
    refine ⟨fun chain linked => ?_, fun other reaches => ?_⟩
    · exact Nat.le_of_lt_succ (length_lt_of_append loaded linked)
    · rcases append_of_reaches loaded reaches with ⟨_, _, _, -, inner⟩
      exact decodable_limited.mp (decodable_of_append inner)
  · rintro ⟨shallow, decodable⟩
    have bounded (chain : List GlyphId)
        (linked : (id :: chain).IsChain (outlines.limited limit).Refers) :
        chain.length < limit + 1 :=
      Nat.lt_succ_of_le (shallow chain linked)
    exact append_of_decodable bounded
      (fun other reaches => decodable_limited.mpr (decodable other reaches)) {}
  · have same : Relation.TransGen (outlines.limited any).Refers id id := cycle
    exact not_append_of_cycle same {} out

def pointInside : Outlines where
  locations := ⟨.short, [0, 16, 32]⟩
  glyphs := [255, 255, 0, 0, 0, 0, 0, 0, 0, 0, 0, 2, 0, 1, 1, 0,
    0, 1, 0, 0, 0, 0, 0, 0, 0, 0, 0, 0, 0, 0, 49, 0]

/-- One link is within a limit of one and of two, and not of none. -/
theorem points_depth_inside :
    1 ≤ 2 ∧
    (pointInside.limited 1).points ⟨0⟩ = .ok (⟨#[⟨⟨1, 0⟩, true⟩], #[0]⟩ : GlyphPoints Rat) ∧
    (pointInside.limited 2).points ⟨0⟩ = .ok (⟨#[⟨⟨1, 0⟩, true⟩], #[0]⟩ : GlyphPoints Rat) ∧
    (pointInside.limited 0).points (α := Rat) ⟨0⟩ = .error (.recursionLimit ⟨1⟩ 0) ∧
    ∀ chain, (⟨0⟩ :: chain).IsChain pointInside.Refers → chain.length ≤ 1 := by
  have loaded : (pointInside.limited 1).points ⟨0⟩ =
      .ok (⟨#[⟨⟨1, 0⟩, true⟩], #[0]⟩ : GlyphPoints Rat) := by
    with_unfolding_all rfl
  have refused : (pointInside.limited 0).points (α := Rat) ⟨0⟩ = .error (.recursionLimit ⟨1⟩ 0) := by
    with_unfolding_all rfl
  have bound : 1 ≤ 2 := by decide
  rcases points_depth (α := Rat) bound ⟨0⟩ with ⟨-, unchanged, succeeds, -⟩
  have notReached : ¬HitsLimit ((pointInside.limited 1).points (α := Rat) ⟨0⟩) := by
    rintro ⟨id, limit, equal⟩
    cases loaded.symm.trans equal
  exact ⟨bound, loaded, (unchanged notReached).trans loaded, refused,
    (succeeds.mp ⟨_, loaded⟩).1⟩

end Outlines

end Letterform.TrueType
