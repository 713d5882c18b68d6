import Terrarium.Foundations.Acyclic

/-!
# Memo — collecting over a graph with a table of answers

Each node of a graph has items of its own and refers to other nodes.  The answer for a node is the
items of everything it refers to, directly or through others; an error anywhere below is the answer.
A node's answer is kept in a table, and while it is computed the table says that it has none.

Where nothing is tangled, the table does not change an answer (`follow_exact`, `answers_exact`).
-/

namespace Terrarium.Memo

open Relation

variable {α σ ε : Type}

/-- What a node has: its own items and its references in order; a reference may be broken. -/
structure Node (α σ ε : Type) where
  items : List σ
  refs : List (Except ε α)
  deriving DecidableEq

abbrev Answer (σ ε : Type) := Except ε (List σ)

abbrev Table (α σ ε : Type) := α → Option (Answer σ ε)

/-- What a node has, as far as an amount of fuel finds out. -/
abbrev Expand (α σ ε : Type) := Nat → α → Option (Except ε (Node α σ ε))

/-! ## The answer without a table -/

section Graph

variable (expand : Expand α σ ε)

/-- What a node has, once there is fuel enough to find out. -/
def Expands (a : α) (result : Except ε (Node α σ ε)) : Prop :=
  ∃ fuel, expand fuel a = some result

/-- Every node is found out about, and more fuel does not change what is found. -/
structure Steady : Prop where
  total : ∀ a, ∃ result, Expands expand a result
  mono : ∀ {fuel fuel' a result}, expand fuel a = some result → fuel ≤ fuel' →
    expand fuel' a = some result

def Refers (a b : α) : Prop :=
  ∃ node, Expands expand a (.ok node) ∧ .ok b ∈ node.refs

def Broken (a : α) : Prop :=
  (∃ reason, Expands expand a (.error reason)) ∨
    ∃ node reason, Expands expand a (.ok node) ∧ .error reason ∈ node.refs

def Has (a : α) (item : σ) : Prop :=
  ∃ node, Expands expand a (.ok node) ∧ item ∈ node.items

def Reaches : α → α → Prop :=
  ReflTransGen (Refers expand)

/-- An error if something below is broken, and otherwise the items of everything below. -/
def Exact (a : α) : Answer σ ε → Prop
  | .error _ => ∃ b, Reaches expand a b ∧ Broken expand b
  | .ok items =>
      (∀ b, Reaches expand a b → ¬ Broken expand b) ∧
        ∀ item, item ∈ items ↔ ∃ b, Reaches expand a b ∧ Has expand b item

/-- Two different nodes below `a` that reach each other. -/
def Tangled (a : α) : Prop :=
  ∃ b c, Reaches expand a b ∧ Reaches expand b c ∧ Reaches expand c b ∧ b ≠ c

end Graph

variable {expand : Expand α σ ε} {a b c : α}

lemma Steady.unique (hsteady : Steady expand) {result result' : Except ε (Node α σ ε)}
    (h : Expands expand a result) (h' : Expands expand a result') : result = result' := by
  obtain ⟨fuel, hfuel⟩ := h
  obtain ⟨fuel', hfuel'⟩ := h'
  have hleft := hsteady.mono hfuel (Nat.le_max_left fuel fuel')
  have hright := hsteady.mono hfuel' (Nat.le_max_right fuel fuel')
  exact Option.some.inj (hleft.symm.trans hright)

lemma not_tangled_of_reaches (h : ¬ Tangled expand a) (hb : Reaches expand a b) :
    ¬ Tangled expand b :=
  fun ⟨c, d, hc, hcd, hdc, hne⟩ => h ⟨c, d, hb.trans hc, hcd, hdc, hne⟩

/-- A loop at `a` adds nothing to what is reached from `a`. -/
lemma reaches_cases (h : Reaches expand a c) : c = a ∨ ∃ b, Refers expand a b ∧ b ≠ a ∧
    Reaches expand b c := by
  induction h with
  | refl => exact Or.inl rfl
  | @tail d e _ hstep ih =>
    rcases ih with rfl | ⟨b, hb, hne, hd⟩
    · by_cases he : e = d
      · exact Or.inl he
      · exact Or.inr ⟨e, hstep, he, ReflTransGen.refl⟩
    · exact Or.inr ⟨b, hb, hne, hd.tail hstep⟩

lemma not_reaches_back (h : ¬ Tangled expand a) (hb : Refers expand a b) (hne : b ≠ a) :
    ¬ Reaches expand b a :=
  fun hback => h ⟨a, b, ReflTransGen.refl, ReflTransGen.single hb, hback, hne.symm⟩

/-- Below an untangled node the references to other nodes are well founded. -/
lemma acc_of_not_tangled [Finite α] (h : ¬ Tangled expand a) :
    Acc (fun b a => Refers expand a b ∧ b ≠ a) a := by
  have hreach : ∀ {x y}, ReflTransGen (fun b a => Refers expand a b ∧ b ≠ a) x y →
      Reaches expand y x := by
    intro x y hxy
    induction hxy with
    | refl => exact ReflTransGen.refl
    | tail _ hstep ih => exact ReflTransGen.head hstep.1 ih
  refine Acyclic.acc_of_acyclic fun b hb hcycle => ?_
  -- a cycle through `b` has a first step to a different node, and leads back
  obtain ⟨c, hbc, hcb⟩ := TransGen.tail'_iff.1 hcycle
  refine h ⟨b, c, hreach hb, ReflTransGen.single hcb.1, hreach hbc, ?_⟩
  exact hcb.2.symm

/-- What the references of `a` that lead elsewhere add up to. -/
def Collected (expand : Expand α σ ε) (a : α) (refs : List (Except ε α))
    (items : List σ) : Answer σ ε → Prop
  | .error _ =>
      (∃ reason, .error reason ∈ refs) ∨
        ∃ b, .ok b ∈ refs ∧ b ≠ a ∧ ∃ c, Reaches expand b c ∧ Broken expand c
  | .ok sum =>
      (∀ reason, .error reason ∉ refs) ∧
        (∀ b, .ok b ∈ refs → b ≠ a → ∀ c, Reaches expand b c → ¬ Broken expand c) ∧
        ∀ item, item ∈ sum ↔
          item ∈ items ∨ ∃ b, .ok b ∈ refs ∧ b ≠ a ∧ ∃ c, Reaches expand b c ∧ Has expand c item

variable {refs : List (Except ε α)} {items : List σ} {answer : Answer σ ε} {below : α → Prop}
    {table' : Table α σ ε}

lemma Collected.of_error {reason : ε} (hne : b ≠ a) (h : Exact expand b (.error reason)) :
    Collected expand a (.ok b :: refs) items (.error reason) :=
  Or.inr ⟨b, List.mem_cons_self, hne, h⟩

lemma Collected.error_cons {reason : ε} {ref : Except ε α} {items' : List σ}
    (h : Collected expand a refs items' (.error reason)) :
    Collected expand a (ref :: refs) items (.error reason) := by
  rcases h with ⟨reason, hreason⟩ | ⟨c, hc, hrest⟩
  · exact Or.inl ⟨reason, List.mem_cons_of_mem _ hreason⟩
  · exact Or.inr ⟨c, List.mem_cons_of_mem _ hc, hrest⟩

lemma Collected.cons {added : List σ} (hne : b ≠ a) (h : Exact expand b (.ok added))
    (hrest : Collected expand a refs (items ++ added) answer) :
    Collected expand a (.ok b :: refs) items answer := by
  cases answer with
  | error reason => exact hrest.error_cons
  | ok sum =>
    obtain ⟨hunbroken, hitems⟩ := h
    obtain ⟨hrefs, hbelow, hsum⟩ := hrest
    refine ⟨fun reason hreason => ?_, fun c hc hca d hd => ?_, fun item => ?_⟩
    · exact hrefs reason (by simpa using hreason)
    · rcases List.mem_cons.1 hc with heq | hc
      · cases heq
        exact hunbroken d hd
      · exact hbelow c hc hca d hd
    · rw [hsum item, List.mem_append, hitems item]
      constructor
      · rintro ((hitem | hitem) | ⟨c, hc, hrest⟩)
        · exact Or.inl hitem
        · exact Or.inr ⟨b, List.mem_cons_self, hne, hitem⟩
        · exact Or.inr ⟨c, List.mem_cons_of_mem _ hc, hrest⟩
      · rintro (hitem | ⟨c, hc, hca, hrest⟩)
        · exact Or.inl (Or.inl hitem)
        · rcases List.mem_cons.1 hc with heq | hc
          · cases heq
            exact Or.inl (Or.inr hrest)
          · exact Or.inr ⟨c, hc, hca, hrest⟩

lemma Collected.loop (hrest : Collected expand a refs items answer) :
    Collected expand a (.ok a :: refs) items answer := by
  cases answer with
  | error reason => exact hrest.error_cons
  | ok sum =>
    have hcons : ∀ c, c ≠ a → (Except.ok c ∈ Except.ok a :: refs ↔ Except.ok c ∈ refs) :=
      fun c hca => by simp [hca]
    obtain ⟨hrefs, hbelow, hsum⟩ := hrest
    refine ⟨fun reason hreason => ?_, fun c hc hca => ?_, fun item => ?_⟩
    · exact hrefs reason (by simpa using hreason)
    · exact hbelow c ((hcons c hca).1 hc) hca
    · rw [hsum item]
      refine or_congr_right (exists_congr fun c => ?_)
      constructor
      · exact fun ⟨hc, hca, hrest⟩ => ⟨(hcons c hca).2 hc, hca, hrest⟩
      · exact fun ⟨hc, hca, hrest⟩ => ⟨(hcons c hca).1 hc, hca, hrest⟩

lemma Collected.exact (hsteady : Steady expand) {node : Node α σ ε}
    (hnode : Expands expand a (.ok node)) (h : Collected expand a node.refs node.items answer) :
    Exact expand a answer := by
  have hrefers : ∀ {b}, .ok b ∈ node.refs → Refers expand a b := fun hb => ⟨node, hnode, hb⟩
  have hrefs : ∀ {b}, Refers expand a b → .ok b ∈ node.refs := by
    rintro b ⟨node', hnode', hb⟩
    cases hsteady.unique hnode hnode'
    exact hb
  cases answer with
  | error reason =>
    rcases h with ⟨reason, hreason⟩ | ⟨b, hb, -, c, hc, hbroken⟩
    · exact ⟨a, ReflTransGen.refl, Or.inr ⟨node, reason, hnode, hreason⟩⟩
    · exact ⟨c, ReflTransGen.head (hrefers hb) hc, hbroken⟩
  | ok sum =>
    obtain ⟨herrors, hbelow, hsum⟩ := h
    refine ⟨fun c hc => ?_, fun item => ?_⟩
    · rcases reaches_cases hc with rfl | ⟨b, hb, hba, hc⟩
      · rintro (⟨reason, hreason⟩ | ⟨node', reason, hnode', hreason⟩)
        · cases hsteady.unique hnode hreason
        · cases hsteady.unique hnode hnode'
          exact herrors reason hreason
      · exact hbelow b (hrefs hb) hba c hc
    · rw [hsum item]
      constructor
      · rintro (hitem | ⟨b, hb, -, c, hc, hhas⟩)
        · exact ⟨a, ReflTransGen.refl, node, hnode, hitem⟩
        · exact ⟨c, ReflTransGen.head (hrefers hb) hc, hhas⟩
      · rintro ⟨c, hc, hhas⟩
        rcases reaches_cases hc with rfl | ⟨b, hb, hba, hc⟩
        · obtain ⟨node', hnode', hitem⟩ := hhas
          cases hsteady.unique hnode hnode'
          exact Or.inl hitem
        · exact Or.inr ⟨b, hrefs hb, hba, c, hc, hhas⟩

/-! ## Tables of exact answers -/

/-- What the table has below `a` is exact. -/
def Sound (expand : Expand α σ ε) (below : α → Prop) (table : Table α σ ε) : Prop :=
  ∀ b answer, below b → table b = some answer → Exact expand b answer

/-- Below `a` the table has gained exact answers, and elsewhere it is as before. -/
def Gained (expand : Expand α σ ε) (below : α → Prop) (table table' : Table α σ ε) : Prop :=
  ∀ b, table' b = table b ∨ below b ∧ ∃ answer, table' b = some answer ∧ Exact expand b answer

lemma Gained.refl (below : α → Prop) (table : Table α σ ε) : Gained expand below table table :=
    fun _ => Or.inl rfl

lemma Gained.trans {table table'' : Table α σ ε} (h : Gained expand below table table')
    (h' : Gained expand below table' table'') : Gained expand below table table'' := by
  intro b
  rcases h' b with hb | hb
  · rw [hb]
    exact h b
  · exact Or.inr hb

lemma Gained.mono {below' : α → Prop} {table : Table α σ ε} (h : Gained expand below table table')
    (hsub : ∀ b, below b → below' b) : Gained expand below' table table' :=
  fun b => (h b).imp_right fun hb => ⟨hsub b hb.1, hb.2⟩

lemma Sound.gained {other : α → Prop} {table : Table α σ ε} (h : Sound expand below table)
    (hgained : Gained expand other table table') : Sound expand below table' := by
  intro b answer hb htable
  rcases hgained b with heq | ⟨-, answer', htable', hexact⟩
  · exact h b answer hb (heq ▸ htable)
  · rw [htable'] at htable
    exact Option.some.inj htable ▸ hexact

/-! ## The computation -/

/-- The items of all references, up to the first error. -/
def followRefs (follow : Table α σ ε → α → Option (Answer σ ε × Table α σ ε)) :
    List (Except ε α) → List σ → Table α σ ε → Option (Answer σ ε × Table α σ ε)
  | [], items, table => some (.ok items, table)
  | .error reason :: _, _, table => some (.error reason, table)
  | .ok next :: refs, items, table =>
      match follow table next with
      | none => none
      | some (.error reason, table) => some (.error reason, table)
      | some (.ok added, table) => followRefs follow refs (items ++ added) table

variable [DecidableEq α]

/-- The answer for a node: the one in the table, or else the one that is computed and kept. -/
def follow (expand : Expand α σ ε) :
    Nat → Table α σ ε → α → Option (Answer σ ε × Table α σ ε)
  | 0, _, _ => none
  | fuel + 1, table, a =>
      match table a with
      | some answer => some (answer, table)
      | none =>
          let begun := Function.update table a (some (.ok []))
          let followed : Option (Answer σ ε × Table α σ ε) :=
            match expand fuel a with
            | none => none
            | some (.error reason) => some (.error reason, begun)
            | some (.ok node) => followRefs (follow expand fuel) node.refs node.items begun
          followed.map fun (answer, table) => (answer, Function.update table a (some answer))

/-- The answers to one question after the other, with one table. -/
def answers (ask : Table α σ ε → α → Option (Answer σ ε × Table α σ ε)) :
    Table α σ ε → List α → Option (List (Answer σ ε))
  | _, [] => some []
  | table, a :: rest =>
      match ask table a with
      | none => none
      | some (answer, table) => (answers ask table rest).map fun others => answer :: others

/-! ## The table does not change an answer -/

/-- The answer for `a`, from some table, is found with enough fuel, is exact, and the table only
gains. -/
def Answers (expand : Expand α σ ε) (table : Table α σ ε) (a : α) : Prop :=
  ∃ least answer table',
    (∀ fuel, least ≤ fuel → follow expand fuel table a = some (answer, table')) ∧
    Exact expand a answer ∧ Gained expand (Reaches expand a) table table'

lemma exists_followRefs (hself : ∀ b, below b → b ≠ a)
    (hbelow : ∀ b, .ok b ∈ refs → b ≠ a → ∀ c, Reaches expand b c → below c)
    (hanswers : ∀ b, .ok b ∈ refs → b ≠ a →
      ∀ table : Table α σ ε, Sound expand (Reaches expand b) table → Answers expand table b)
    {table : Table α σ ε} (hsound : Sound expand below table) (hbegun : table a = some (.ok []))
    (items : List σ) :
    ∃ least answer table', (∀ fuel, least ≤ fuel →
        followRefs (follow expand fuel) refs items table = some (answer, table')) ∧
        Collected expand a refs items answer ∧ Gained expand below table table' := by
  induction refs generalizing table items with
  | nil => exact ⟨0, .ok items, table, fun _ _ => rfl, ⟨by simp, by simp, by simp⟩, Gained.refl _ _⟩
  | cons ref refs ih =>
    have ih := @ih (fun b hb => hbelow b (List.mem_cons_of_mem _ hb))
      (fun b hb => hanswers b (List.mem_cons_of_mem _ hb))
    cases ref with
    | error reason =>
      exact ⟨0, .error reason, table, fun _ _ => rfl, Or.inl ⟨reason, List.mem_cons_self⟩,
        Gained.refl _ _⟩
    | ok b =>
      by_cases hba : b = a
      · -- the table says that the node being followed has no items
        subst hba
        obtain ⟨least, answer, table', hfollow, hcollected, hgained⟩ := ih hsound hbegun items
        refine ⟨least + 1, answer, table', fun fuel hfuel => ?_, hcollected.loop, hgained⟩
        obtain ⟨fuel, rfl⟩ := Nat.exists_eq_add_of_lt hfuel
        have hself : follow expand (least + fuel + 1) table b = some (.ok [], table) := by
          simp [follow, hbegun]
        simp only [followRefs, hself, List.append_nil]
        exact hfollow _ (by omega)
      · have hsub := hbelow b List.mem_cons_self hba
        obtain ⟨first, answer, table', hfirst, hexact, hgained⟩ :=
          hanswers b List.mem_cons_self hba table fun c ans hc => hsound c ans (hsub c hc)
        have hgained := hgained.mono hsub
        cases answer with
        | error reason =>
          refine ⟨first, .error reason, table', fun fuel hfuel => ?_,
            Collected.of_error hba hexact, hgained⟩
          simp only [followRefs, hfirst fuel hfuel]
        | ok added =>
          have hbegun : table' a = some (.ok []) := by
            rcases hgained a with heq | ⟨ha, -⟩
            · rw [heq, hbegun]
            · exact absurd rfl (hself a ha)
          obtain ⟨least, answer, table'', hfollow, hcollected, hgained'⟩ :=
            ih (hsound.gained hgained) hbegun (items ++ added)
          refine ⟨max first least, answer, table'', fun fuel hfuel => ?_,
            Collected.cons hba hexact hcollected, hgained.trans hgained'⟩
          simp only [followRefs, hfirst fuel (le_trans (Nat.le_max_left _ _) hfuel)]
          exact hfollow fuel (le_trans (Nat.le_max_right _ _) hfuel)

lemma Gained.finish {table : Table α σ ε} (hexact : Exact expand a answer)
    (h : Gained expand (fun b => Reaches expand a b ∧ b ≠ a)
      (Function.update table a (some (.ok []))) table') :
    Gained expand (Reaches expand a) table (Function.update table' a (some answer)) := by
  intro b
  by_cases hb : b = a
  · subst hb
    exact Or.inr ⟨ReflTransGen.refl, answer, by simp, hexact⟩
  · rw [Function.update_of_ne hb]
    rcases h b with heq | ⟨hbelow, hrest⟩
    · exact Or.inl (by rw [heq, Function.update_of_ne hb])
    · exact Or.inr ⟨hbelow.1, hrest⟩

/-- Where nothing is tangled, an answer does not depend on the table. -/
theorem follow_exact [Finite α] (hsteady : Steady expand) (huntangled : ¬ Tangled expand a)
    {table : Table α σ ε} (hsound : Sound expand (Reaches expand a) table) :
    Answers expand table a := by
  have hacc := acc_of_not_tangled huntangled
  induction hacc generalizing table with
  | intro a _ ih =>
    cases hcached : table a with
    | some answer =>
      refine ⟨1, answer, table, fun fuel hfuel => ?_, hsound a answer ReflTransGen.refl hcached,
        Gained.refl _ _⟩
      obtain ⟨fuel, rfl⟩ := Nat.exists_eq_add_of_lt hfuel
      simp [follow, hcached]
    | none =>
      obtain ⟨result, enough, henough⟩ := hsteady.total a
      have hexpand : ∀ fuel, enough ≤ fuel → expand fuel a = some result :=
        fun fuel hfuel => hsteady.mono henough hfuel
      cases result with
      | error reason =>
        have hexact : Exact expand a (.error reason) :=
          ⟨a, ReflTransGen.refl, Or.inl ⟨reason, enough, henough⟩⟩
        refine ⟨enough + 1, .error reason, _, fun fuel hfuel => ?_, hexact,
          Gained.finish hexact (Gained.refl _ _)⟩
        obtain ⟨fuel, rfl⟩ := Nat.exists_eq_add_of_lt hfuel
        simp [follow, hcached, hexpand (enough + fuel) (Nat.le_add_right _ _)]
      | ok node =>
        have hnode : Expands expand a (.ok node) := ⟨enough, henough⟩
        -- what is below a reference to another node does not lead back
        have hbelow : ∀ b, .ok b ∈ node.refs → b ≠ a → ∀ c, Reaches expand b c →
            Reaches expand a c ∧ c ≠ a := by
          intro b hb hba c hc
          have hstep : Refers expand a b := ⟨node, hnode, hb⟩
          refine ⟨ReflTransGen.head hstep hc, ?_⟩
          rintro rfl
          exact not_reaches_back huntangled hstep hba hc
        have hanswers : ∀ b, .ok b ∈ node.refs → b ≠ a → ∀ table : Table α σ ε,
            Sound expand (Reaches expand b) table → Answers expand table b := by
          intro b hb hba table hsound
          have hstep : Refers expand a b := ⟨node, hnode, hb⟩
          exact ih b ⟨hstep, hba⟩
            (not_tangled_of_reaches huntangled (ReflTransGen.single hstep)) hsound
        have hbegun : Sound expand (fun b => Reaches expand a b ∧ b ≠ a)
            (Function.update table a (some (.ok []))) := by
          intro b answer hb htable
          rw [Function.update_of_ne hb.2] at htable
          exact hsound b answer hb.1 htable
        obtain ⟨least, answer, table', hfollow, hcollected, hgained⟩ :=
          exists_followRefs (fun b hb => hb.2) hbelow hanswers hbegun
            (Function.update_self _ _ _) node.items
        have hexact := hcollected.exact hsteady hnode
        refine ⟨max enough least + 1, answer, _, fun fuel hfuel => ?_, hexact,
          Gained.finish hexact hgained⟩
        obtain ⟨fuel, rfl⟩ := Nat.exists_eq_add_of_lt hfuel
        have henoughFuel : enough ≤ max enough least + fuel := by omega
        have hleastFuel : least ≤ max enough least + fuel := by omega
        simp only [follow, hcached, hexpand _ henoughFuel, hfollow _ hleastFuel, Option.map_some]

/-- Every answer of a run from an empty table is exact. -/
theorem answers_exact [Finite α] (hsteady : Steady expand) {questions : List α}
    (huntangled : ∀ a ∈ questions, ¬ Tangled expand a) (table : Table α σ ε)
    (hsound : Sound expand (fun _ => True) table) :
    ∃ least replies,
    (∀ fuel, least ≤ fuel → answers (follow expand fuel) table questions = some replies) ∧
      List.Forall₂ (Exact expand) questions replies := by
  induction questions generalizing table with
  | nil => exact ⟨0, [], fun _ _ => rfl, List.Forall₂.nil⟩
  | cons a rest ih =>
    obtain ⟨first, answer, table', hfirst, hexact, hgained⟩ :=
      follow_exact hsteady (huntangled a List.mem_cons_self) fun b ans _ => hsound b ans trivial
    obtain ⟨least, replies, hrest, hreplies⟩ :=
      ih (fun b hb => huntangled b (List.mem_cons_of_mem _ hb)) table' (hsound.gained hgained)
    refine ⟨max first least, answer :: replies, fun fuel hfuel => ?_,
      List.Forall₂.cons hexact hreplies⟩
    simp only [answers, hfirst fuel (le_trans (Nat.le_max_left _ _) hfuel),
      hrest fuel (le_trans (Nat.le_max_right _ _) hfuel), Option.map_some]

end Terrarium.Memo
