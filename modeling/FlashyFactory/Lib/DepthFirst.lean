import Mathlib.Logic.Relation
import FlashyFactory.Lib.Exceptions
import Mathlib.Data.Finset.Card
import Mathlib.Data.List.Basic

/-! # Depth-first walks of a graph that is read node by node

A walk visits a node, then its successors in order, and reports a cycle when it meets a node that it
is still visiting. Reading a node can fail, and recursion is bounded. A walk from a root that ends has
noted exactly the nodes that the root reaches (`notes_of_walk`), none of which is on a cycle
(`acyclic_of_walk`). No walk reads a node twice, and on finitely many nodes it needs no deeper recursion
than there are nodes (`walk_ne_deep`). -/

universe u v w

namespace DepthFirst

/-- How the nodes of a graph are read, and what is reported. -/
structure Graph (α ν : Type u) (ε : Type v) where
  visit : α → Except ε ν
  successors : ν → List α
  cycle : α → ε
  /-- The recursion is too deep. -/
  deep : ε

structure Walk (α ν : Type u) where
  visiting : List α := []
  visited : List α := []
  /-- What was read, the newest first. -/
  notes : List (α × ν) := []

variable {α ν : Type u} {ε : Type v}

/-- The walk goes on from `w` to `w'`. -/
structure Extends (w w' : Walk α ν) : Prop where
  visiting : w'.visiting = w.visiting
  visited : w.visited ⊆ w'.visited
  notes : w.notes ⊆ w'.notes

theorem Extends.refl {w : Walk α ν} : Extends w w := ⟨rfl, List.Subset.refl _, List.Subset.refl _⟩

theorem Extends.trans {w w' w'' : Walk α ν} (h : Extends w w') (h' : Extends w' w'') : Extends w w'' :=
  ⟨h'.visiting.trans h.visiting, List.Subset.trans h.visited h'.visited, List.Subset.trans h.notes h'.notes⟩

/-- Another note in the place of each one. -/
def Walk.map (f : α → ν → ν) (w : Walk α ν) : Walk α ν :=
  { w with notes := w.notes.map fun p => (p.1, f p.1 p.2) }

variable [DecidableEq α]

def walk (G : Graph α ν ε) : ℕ → α → Walk α ν → Except ε (Walk α ν)
  | 0, _, _ => .error G.deep
  | n + 1, a, w =>
    if a ∈ w.visiting then .error (G.cycle a)
    else if a ∈ w.visited then .ok w
    else match G.visit a with
      | .error e => .error e
      | .ok note =>
        match (G.successors note).foldlM (fun w b => walk G n b w)
            { w with visiting := a :: w.visiting, notes := (a, note) :: w.notes } with
        | .error e => .error e
        | .ok w' => .ok { w' with visiting := w'.visiting.erase a, visited := a :: w'.visited }

/-- The walk in a monad in which the nodes are read. -/
def walkM {m : Type u → Type w} [Monad m] (raise : ε → m (Walk α ν)) (visit : α → m ν)
    (successors : ν → List α)
    (cycle : α → ε) (deep : ε) : ℕ → α → Walk α ν → m (Walk α ν)
  | 0, _, _ => raise deep
  | n + 1, a, w =>
    if a ∈ w.visiting then raise (cycle a)
    else if a ∈ w.visited then pure w
    else do
      let note ← visit a
      let w' ← (successors note).foldlM (fun w b => walkM raise visit successors cycle deep n b w)
        { w with visiting := a :: w.visiting, notes := (a, note) :: w.notes }
      pure { w' with visiting := w'.visiting.erase a, visited := a :: w'.visited }

namespace Graph

/-- `b` is a successor of `a`. -/
def Edge (G : Graph α ν ε) (a b : α) : Prop := ∃ note, G.visit a = .ok note ∧ b ∈ G.successors note

abbrev Reaches (G : Graph α ν ε) : α → α → Prop := Relation.ReflTransGen G.Edge

end Graph

variable {G : Graph α ν ε} {root a : α} {w w' : Walk α ν}

/-! ## What a walk has noted -/

/-- What is noted is true of nodes that the root reaches, and a node is visited after its
successors. -/
structure Sound (G : Graph α ν ε) (root : α) (w : Walk α ν) : Prop where
  noted : ∀ p ∈ w.notes, G.Reaches root p.1 ∧ G.visit p.1 = .ok p.2
  closed : ∀ a ∈ w.visited, (∃ note, (a, note) ∈ w.notes) ∧ ∀ b, G.Edge a b → b ∈ w.visited
  disjoint : ∀ a ∈ w.visited, a ∉ w.visiting
  acyclic : ∀ a ∈ w.visited, ¬ Relation.TransGen G.Edge a a

omit [DecidableEq α] in
theorem Sound.initial : Sound G root ({} : Walk α ν) := ⟨nofun, nofun, nofun, nofun⟩

omit [DecidableEq α] in
theorem Sound.visited_of_reaches (H : Sound G root w) (ha : a ∈ w.visited) (hb : G.Reaches a b) :
    b ∈ w.visited := by
  induction hb with
  | refl => exact ha
  | tail _ hedge ih => exact (H.closed _ ih).2 _ hedge

omit [DecidableEq α] in
theorem Sound.visit (H : Sound G root w) (ha : G.Reaches root a) (hvisit : G.visit a = .ok note)
    (hvisited : a ∉ w.visited) :
    Sound G root { w with visiting := a :: w.visiting, notes := (a, note) :: w.notes } where
  noted := List.forall_mem_cons.mpr ⟨⟨ha, hvisit⟩, H.noted⟩
  closed b hb := by
    obtain ⟨⟨other, hother⟩, hclosed⟩ := H.closed b hb
    exact ⟨⟨other, List.mem_cons_of_mem _ hother⟩, hclosed⟩
  disjoint b hb := by
    rw [List.mem_cons, not_or]
    exact ⟨fun h => hvisited (h ▸ hb), H.disjoint b hb⟩
  acyclic := H.acyclic

omit [DecidableEq α] in
theorem Sound.foldlM (hstep : ∀ {b w w'}, G.Reaches root b → Sound G root w → f w b = .ok w' →
      Sound G root w' ∧ Extends w w' ∧ b ∈ w'.visited) {bs : List α}
    (hbs : ∀ b ∈ bs, G.Reaches root b) (H : Sound G root w) (h : bs.foldlM f w = Except.ok (ε := ε) w') :
    Sound G root w' ∧ Extends w w' ∧ ∀ b ∈ bs, b ∈ w'.visited := by
  induction bs generalizing w with
  | nil =>
    cases h
    exact ⟨H, .refl, nofun⟩
  | cons b bs ih =>
    rw [List.foldlM_cons] at h
    cases hb : f w b with
    | error e =>
      rw [hb] at h
      cases h
    | ok w₁ =>
      rw [hb] at h
      obtain ⟨H₁, hext₁, hvisited⟩ := hstep (hbs b List.mem_cons_self) H hb
      obtain ⟨H', hext, hall⟩ := ih (fun c hc => hbs c (List.mem_cons_of_mem _ hc)) H₁ h
      refine ⟨H', hext₁.trans hext, List.forall_mem_cons.mpr ⟨hext.visited hvisited, hall⟩⟩

theorem Sound.walk {n : ℕ} (ha : G.Reaches root a) (H : Sound G root w)
    (h : walk G n a w = .ok w') : Sound G root w' ∧ Extends w w' ∧ a ∈ w'.visited := by
  induction n generalizing a w w' with
  | zero => cases h
  | succ n ih =>
    simp only [DepthFirst.walk] at h
    split at h
    · cases h
    next hvisiting =>
    split at h
    · next hvisited =>
      cases h
      exact ⟨H, .refl, hvisited⟩
    next hvisited =>
    split at h
    · cases h
    next note hvisit =>
    split at h
    · cases h
    next w₁ hfold =>
    cases h
    have hedge : ∀ b ∈ G.successors note, G.Edge a b := fun b hb => ⟨note, hvisit, hb⟩
    obtain ⟨H₁, hext, hall⟩ :=
      Sound.foldlM ih (fun b hb => ha.tail (hedge b hb)) (H.visit ha hvisit hvisited) hfold
    have hsuccessors : ∀ b, G.Edge a b → b ∈ w₁.visited := by
      rintro b ⟨other, hother, hb⟩
      cases hvisit.symm.trans hother
      exact hall b hb
    have hfresh : a ∉ w₁.visited := fun h => H₁.disjoint a h (hext.visiting ▸ List.mem_cons_self)
    refine ⟨⟨H₁.noted, List.forall_mem_cons.mpr ⟨?_, fun b hb => ?_⟩,
      List.forall_mem_cons.mpr ⟨?_, fun b hb h => ?_⟩, List.forall_mem_cons.mpr ⟨fun h => ?_, H₁.acyclic⟩⟩,
      ⟨?_, ?_, ?_⟩, List.mem_cons_self⟩
    · exact ⟨⟨note, hext.notes List.mem_cons_self⟩, fun c hc => List.mem_cons_of_mem _ (hsuccessors c hc)⟩
    · obtain ⟨hnote, hclosed⟩ := H₁.closed b hb
      exact ⟨hnote, fun c hc => List.mem_cons_of_mem _ (hclosed c hc)⟩
    · simpa [hext.visiting] using hvisiting
    · exact H₁.disjoint b hb (List.mem_of_mem_erase h)
    · -- a cycle through `a` leads back to it along nodes that are visited already
      obtain ⟨b, hb, hback⟩ := Relation.TransGen.head'_iff.mp h
      exact hfresh (H₁.visited_of_reaches (hsuccessors b hb) hback)
    · simp [hext.visiting]
    · exact List.Subset.trans hext.visited (List.subset_cons_self _ _)
    · exact List.Subset.trans (List.subset_cons_self _ _) hext.notes

/-- **A walk that ends has noted what the root reaches**, and nothing else. -/
theorem notes_of_walk {n : ℕ} (h : walk G n root {} = .ok w) :
    (∃ note, (b, note) ∈ w.notes) ↔ G.Reaches root b := by
  obtain ⟨H, -, hroot⟩ := Sound.initial.walk .refl h
  exact ⟨fun ⟨note, hnote⟩ => (H.noted _ hnote).1, fun hb => (H.closed b (H.visited_of_reaches hroot hb)).1⟩

theorem visit_of_note {n : ℕ} (h : walk G n root {} = .ok w) (hnote : (b, note) ∈ w.notes) :
    G.visit b = .ok note :=
  ((Sound.initial.walk .refl h).1.noted _ hnote).2

theorem lookup_of_walk [BEq α] [LawfulBEq α] {n : ℕ} (h : walk G n root {} = .ok w) :
    w.notes.lookup b = some note ↔ G.Reaches root b ∧ G.visit b = .ok note := by
  constructor
  · intro hlookup
    have hnote : (b, note) ∈ w.notes := by
      obtain ⟨notes, notes', heq, -⟩ := List.lookup_eq_some_iff.mp hlookup
      rw [heq]
      exact List.mem_append_right _ List.mem_cons_self
    exact ⟨(notes_of_walk h).mp ⟨note, hnote⟩, visit_of_note h hnote⟩
  · rintro ⟨hreaches, hvisit⟩
    obtain ⟨other, hother⟩ := (notes_of_walk h).mpr hreaches
    cases hlookup : w.notes.lookup b with
    | none => simpa using List.lookup_eq_none_iff.mp hlookup _ hother
    | some found =>
      obtain ⟨notes, notes', heq, -⟩ := List.lookup_eq_some_iff.mp hlookup
      have hfound : (b, found) ∈ w.notes := heq ▸ List.mem_append_right _ List.mem_cons_self
      cases hvisit.symm.trans (visit_of_note h hfound)
      rfl

/-- A walk that ends has met no cycle. -/
theorem acyclic_of_walk {n : ℕ} (h : walk G n root {} = .ok w) (hb : G.Reaches root b) :
    ¬ Relation.TransGen G.Edge b b :=
  have ⟨H, _, hroot⟩ := Sound.initial.walk .refl h
  H.acyclic b (H.visited_of_reaches hroot hb)

/-! ## What a walk reads -/

section Reads
variable {ν ε : Type u} {G : Graph α ν ε} {root a : α} {w w' : Walk α ν}

/-- Programs that may fail, with a log of the nodes that they read. -/
abbrev Logging (α ε : Type u) := ExceptT ε (StateM (List α))

omit [DecidableEq α] in
/-- A node is read, and is in the log whether it can be read or not. -/
def Logging.visit (visit : α → Except ε ν) (a : α) : Logging α ε ν := fun log => (visit a, log ++ [a])

/-- The walk with a log. -/
def walkLogged (G : Graph α ν ε) : ℕ → α → Walk α ν → Logging α ε (Walk α ν) :=
  walkM throw (Logging.visit G.visit) G.successors G.cycle G.deep

omit [DecidableEq α] in
@[simp] theorem Logging.bind_run {β γ : Type u} {x : Logging α ε β} {f : β → Logging α ε γ} {log : List α} :
    (x >>= f) log = match x log with
      | (.ok b, log) => f b log
      | (.error e, log) => (.error e, log) := by
  change (ExceptT.bindCont f (x log).1) (x log).2 = _
  cases x log with
  | mk r log => cases r <;> rfl

/-- What is read from here: each node once, none that was visited before, and all are visited after. -/
structure Fresh (G : Graph α ν ε) (root : α) (w : Walk α ν) (r : Except ε (Walk α ν)) (log : List α) :
    Prop where
  nodup : log.Nodup
  reaches : ∀ b ∈ log, G.Reaches root b
  unvisited : ∀ b ∈ log, b ∉ w.visited ∧ b ∉ w.visiting
  visited : ∀ w', r = .ok w' → ∀ b ∈ log, b ∈ w'.visited

omit [DecidableEq α] in
theorem Fresh.nil {r : Except ε (Walk α ν)} : Fresh G root w r [] := ⟨.nil, nofun, nofun, nofun⟩

/-- The program has this result, and its log goes on with what is read for the first time. -/
def LogsFresh (G : Graph α ν ε) (root : α) (w : Walk α ν) (x : Logging α ε (Walk α ν))
    (r : Except ε (Walk α ν)) : Prop :=
  ∃ reads, Fresh G root w r reads ∧ ∀ log, x log = (r, log ++ reads)

omit [DecidableEq α] in
theorem LogsFresh.along {f : Walk α ν → α → Except ε (Walk α ν)}
    {g : Walk α ν → α → Logging α ε (Walk α ν)}
    (hwalk : ∀ {b w w'}, G.Reaches root b → Sound G root w → f w b = .ok w' →
      Sound G root w' ∧ Extends w w' ∧ b ∈ w'.visited)
    (hreads : ∀ {b w}, G.Reaches root b → Sound G root w → LogsFresh G root w (g w b) (f w b))
    {bs : List α} (hbs : ∀ b ∈ bs, G.Reaches root b) (H : Sound G root w) :
    LogsFresh G root w (bs.foldlM g w) (bs.foldlM f w) := by
  induction bs generalizing w with
  | nil => exact ⟨[], .nil, fun log => by rw [List.append_nil]; rfl⟩
  | cons b bs ih =>
    obtain ⟨hb, hrest⟩ := List.forall_mem_cons.mp hbs
    obtain ⟨first, hone, hlog⟩ := hreads hb H
    cases hstep : f w b with
    | error e =>
      refine ⟨first, ⟨hone.nodup, hone.reaches, hone.unvisited, ?_⟩, fun log => ?_⟩
      · rw [List.foldlM_cons, hstep]
        exact nofun
      · rw [List.foldlM_cons, Logging.bind_run, hlog, List.foldlM_cons, hstep]
        rfl
    | ok w₁ =>
      obtain ⟨H₁, hext, -⟩ := hwalk hb H hstep
      obtain ⟨rest, hmany, hlogs⟩ := ih hrest H₁
      have hvisited := hone.visited w₁ hstep
      have hfold : (b :: bs).foldlM f w = bs.foldlM f w₁ := by
        rw [List.foldlM_cons, hstep]
        rfl
      rw [hfold]
      refine ⟨first ++ rest, ⟨List.nodup_append.mpr ⟨hone.nodup, hmany.nodup, ?_⟩,
        List.forall_mem_append.mpr ⟨hone.reaches, hmany.reaches⟩,
        List.forall_mem_append.mpr ⟨hone.unvisited, fun c hc => ?_⟩,
        fun w' h => List.forall_mem_append.mpr ⟨fun c hc => ?_, hmany.visited w' h⟩⟩, fun log => ?_⟩
      · rintro c hc _ hd rfl
        exact (hmany.unvisited c hd).1 (hvisited c hc)
      · obtain ⟨hunvisited, hunvisiting⟩ := hmany.unvisited c hc
        exact ⟨fun h => hunvisited (hext.visited h), hext.visiting ▸ hunvisiting⟩
      · exact (Sound.foldlM hwalk hrest H₁ h).2.1.visited (hvisited c hc)
      · rw [List.foldlM_cons, Logging.bind_run, hlog, hstep, ← List.append_assoc]
        exact hlogs _

theorem LogsFresh.walk {n : ℕ} (ha : G.Reaches root a) (H : Sound G root w) :
    LogsFresh G root w (walkLogged G n a w) (walk G n a w) := by
  induction n generalizing a w with
  | zero => exact ⟨[], .nil, fun log => by rw [List.append_nil]; rfl⟩
  | succ n ih =>
    simp only [walkLogged, DepthFirst.walkM, DepthFirst.walk]
    by_cases hvisiting : a ∈ w.visiting
    · simp only [hvisiting, if_true]
      exact ⟨[], .nil, fun log => by rw [List.append_nil]; rfl⟩
    by_cases hvisited : a ∈ w.visited
    · simp only [hvisiting, hvisited, if_true, if_false]
      exact ⟨[], .nil, fun log => by rw [List.append_nil]; rfl⟩
    simp only [hvisiting, hvisited, if_false]
    cases hvisit : G.visit a with
    | error e =>
      refine ⟨[a], ⟨List.nodup_singleton a, by simpa using ha, by simp [hvisiting, hvisited], nofun⟩,
        fun log => ?_⟩
      rw [Logging.bind_run, Logging.visit, hvisit]
    | ok note =>
      have hedge : ∀ b ∈ G.successors note, G.Edge a b := fun b hb => ⟨note, hvisit, hb⟩
      obtain ⟨rest, hrest, hlog⟩ := LogsFresh.along (fun hb H h => Sound.walk hb H h) (fun hb H => ih hb H)
        (fun b hb => ha.tail (hedge b hb)) (H.visit ha hvisit hvisited)
      refine ⟨a :: rest, ⟨List.nodup_cons.mpr ⟨fun h =>
        (hrest.unvisited a h).2 List.mem_cons_self, hrest.nodup⟩,
        List.forall_mem_cons.mpr ⟨ha, hrest.reaches⟩,
        List.forall_mem_cons.mpr ⟨⟨hvisited, hvisiting⟩, fun b hb => ?_⟩, fun w' h => ?_⟩, fun log => ?_⟩
      · obtain ⟨hunvisited, hunvisiting⟩ := hrest.unvisited b hb
        exact ⟨hunvisited, fun h => hunvisiting (List.mem_cons_of_mem _ h)⟩
      · dsimp only at h
        split at h
        · cases h
        next w₁ hfold =>
        cases h
        exact List.forall_mem_cons.mpr ⟨List.mem_cons_self, fun b hb =>
          List.mem_cons_of_mem _ (hrest.visited w₁ hfold b hb)⟩
      · have hlog := hlog (log ++ [a])
        simp only [walkLogged] at hlog
        simp only [Logging.bind_run, Logging.visit, hvisit, hlog, List.append_assoc, List.singleton_append]
        cases (G.successors note).foldlM (fun w b => walk G n b w)
          { w with visiting := a :: w.visiting, notes := (a, note) :: w.notes } <;> rfl

/-- **A walk reads only what the root reaches, and no node twice**, whether it ends or fails; the log
does not change its result. -/
theorem reads_once (G : Graph α ν ε) (root : α) (n : ℕ) : ∃ reads : List α,
    walkLogged G n root {} [] = (walk G n root {}, reads) ∧ reads.Nodup ∧ ∀ b ∈ reads, G.Reaches root b := by
  have hlogs : LogsFresh G root {} (walkLogged G n root {}) (walk G n root {}) := .walk .refl .initial
  obtain ⟨reads, h, hlog⟩ := hlogs
  exact ⟨reads, hlog [], h.nodup, h.reaches⟩

end Reads

/-! ## What a walk reports -/

omit [DecidableEq α] in
/-- No step of a fold fails with `e`. -/
theorem foldlM_ne_error {f : Walk α ν → α → Except ε (Walk α ν)} (P : Walk α ν → Prop) {bs : List α}
    (hok : ∀ b ∈ bs, ∀ w w', P w → f w b = .ok w' → P w')
    (he : ∀ b ∈ bs, ∀ w, P w → f w b ≠ .error e)
    (hw : P w) : bs.foldlM f w ≠ .error e := by
  induction bs generalizing w with
  | nil => exact nofun
  | cons b bs ih =>
    rw [List.foldlM_cons]
    cases hb : f w b with
    | error e' =>
      intro h
      cases h
      exact he b List.mem_cons_self w hw hb
    | ok w₁ =>
      exact ih (fun c hc => hok c (List.mem_cons_of_mem _ hc)) (fun c hc => he c (List.mem_cons_of_mem _ hc))
        (hok b List.mem_cons_self w w₁ hw hb)

/-- Where all nodes can be read and there is no cycle, only the depth of the recursion makes a walk
fail. -/
theorem walk_ne_error {n : ℕ} (hvisit : ∀ b, G.Reaches root b → ∃ note, G.visit b = .ok note)
    (hacyclic : ∀ b, G.Reaches root b → ¬ Relation.TransGen G.Edge b b) (ha : G.Reaches root a)
    (H : Sound G root w) (hvisiting : ∀ b ∈ w.visiting, Relation.TransGen G.Edge b a) (he : e ≠ G.deep) :
    walk G n a w ≠ .error e := by
  induction n generalizing a w with
  | zero =>
    intro h
    cases h
    exact he rfl
  | succ n ih =>
    simp only [walk]
    split
    · next hcycle => exact (hacyclic a ha (hvisiting a hcycle)).elim
    split
    · exact nofun
    next hvisited =>
    obtain ⟨note, hnote⟩ := hvisit a ha
    simp only [hnote]
    have hedge : ∀ b ∈ G.successors note, G.Edge a b := fun b hb => ⟨note, hnote, hb⟩
    have hfold : (G.successors note).foldlM (fun w b => walk G n b w) _ ≠ .error e := foldlM_ne_error
      (fun w' => Sound G root w' ∧ w'.visiting = a :: w.visiting)
      (fun b hb w₁ w₂ ⟨H₁, hw₁⟩ h => by
        obtain ⟨H₂, hext, -⟩ := H₁.walk (ha.tail (hedge b hb)) h
        exact ⟨H₂, hext.visiting.trans hw₁⟩)
      (fun b hb w₁ ⟨H₁, hw₁⟩ => by
        refine ih (ha.tail (hedge b hb)) H₁ fun c hc => ?_
        rcases List.mem_cons.mp (hw₁ ▸ hc) with rfl | hc
        · exact .single (hedge b hb)
        · exact (hvisiting c hc).tail (hedge b hb))
      ⟨H.visit ha hnote hvisited, rfl⟩
    split
    · next e' h =>
      intro heq
      cases heq
      exact hfold h
    · exact nofun

/-- The stack of a walk holds distinct nodes, so that on finitely many nodes the recursion is never
deeper than there are nodes. -/
theorem walk_ne_deep {n : ℕ} {nodes : Finset α} (hnodes : ∀ b, G.Reaches root b → b ∈ nodes)
    (hvisit : ∀ b, G.visit b ≠ .error G.deep) (hcycle : ∀ b, G.cycle b ≠ G.deep) (ha : G.Reaches root a)
    (H : Sound G root w) (hvisiting : w.visiting.Nodup ∧ ∀ b ∈ w.visiting, b ∈ nodes)
    (hn : nodes.card < n + w.visiting.length) : walk G n a w ≠ .error G.deep := by
  induction n generalizing a w with
  | zero =>
    have hcard : w.visiting.toFinset.card ≤ nodes.card :=
      Finset.card_le_card fun b hb => hvisiting.2 b (List.mem_toFinset.mp hb)
    rw [List.toFinset_card_of_nodup hvisiting.1] at hcard
    omega
  | succ n ih =>
    simp only [walk]
    split
    · exact fun h => hcycle a (Except.error.inj h)
    next hfresh =>
    split
    · exact nofun
    next hvisited =>
    cases hnote : G.visit a with
    | error e => exact fun h => hvisit a (hnote.trans (congrArg _ (Except.error.inj h)))
    | ok note =>
      have hedge : ∀ b ∈ G.successors note, G.Edge a b := fun b hb => ⟨note, hnote, hb⟩
      have hfold : (G.successors note).foldlM (fun w b => walk G n b w) _ ≠ .error G.deep := foldlM_ne_error
        (fun w' => Sound G root w' ∧ w'.visiting = a :: w.visiting)
        (fun b hb w₁ w₂ ⟨H₁, hw₁⟩ h => by
          obtain ⟨H₂, hext, -⟩ := H₁.walk (ha.tail (hedge b hb)) h
          exact ⟨H₂, hext.visiting.trans hw₁⟩)
        (fun b hb w₁ ⟨H₁, hw₁⟩ => by
          refine ih (ha.tail (hedge b hb)) H₁ ?_ ?_
          · rw [hw₁]
            exact ⟨List.nodup_cons.mpr ⟨hfresh, hvisiting.1⟩,
              List.forall_mem_cons.mpr ⟨hnodes a ha, hvisiting.2⟩⟩
          · rw [hw₁, List.length_cons]
            omega)
        ⟨H.visit ha hnote hvisited, rfl⟩
      dsimp only
      split
      · next e' h =>
        intro heq
        cases heq
        exact hfold h
      · exact nofun

/-! ## Two readings of one graph -/

/-- **A walk follows the edges only**: what else is read of the nodes does not change its course. -/
theorem walk_map {G' : Graph α ν ε} {f : α → ν → ν} {n : ℕ}
    (hvisit : ∀ b, G'.visit b = (G.visit b).map (f b))
    (hsuccessors : ∀ b note, G'.successors (f b note) = G.successors note)
    (hcycle : G'.cycle = G.cycle) (hdeep : G'.deep = G.deep) :
    walk G' n a (w.map f) = (walk G n a w).map (Walk.map f) := by
  induction n generalizing a w with
  | zero => simp [walk, Except.map, hdeep]
  | succ n ih =>
    have hfold : ∀ (bs : List α) (w : Walk α ν), bs.foldlM (fun w b => walk G' n b w) (w.map f) =
        (bs.foldlM (fun w b => walk G n b w) w).map (Walk.map f) := by
      intro bs
      induction bs with
      | nil => exact fun _ => rfl
      | cons b bs ihbs =>
        intro w
        rw [List.foldlM_cons, List.foldlM_cons, ih]
        cases walk G n b w with
        | error e => rfl
        | ok w₁ => exact ihbs w₁
    simp only [walk]
    change (if a ∈ w.visiting then _ else if a ∈ w.visited then _ else _) = _
    by_cases hvisiting : a ∈ w.visiting
    · simp [hvisiting, Except.map, hcycle]
    by_cases hvisited : a ∈ w.visited
    · simp [hvisiting, hvisited, Except.map]
    simp only [hvisiting, hvisited, if_false, hvisit]
    cases G.visit a with
    | error e => rfl
    | ok note =>
      have hstart := hfold (G.successors note)
        { w with visiting := a :: w.visiting, notes := (a, note) :: w.notes }
      simp only [Except.map, hsuccessors]
      simp only [Walk.map, List.map_cons] at hstart ⊢
      rw [hstart]
      cases (G.successors note).foldlM (fun w b => walk G n b w)
          { w with visiting := a :: w.visiting, notes := (a, note) :: w.notes } <;> rfl

/-! ## Reading in a monad -/

theorem walk_succ {n : ℕ} : walk G (n + 1) a w =
    if a ∈ w.visiting then .error (G.cycle a)
    else if a ∈ w.visited then .ok w
    else (G.visit a).bind fun note =>
      ((G.successors note).foldlM (fun w b => walk G n b w)
        { w with visiting := a :: w.visiting, notes := (a, note) :: w.notes }).bind fun w' =>
      .ok { w' with visiting := w'.visiting.erase a, visited := a :: w'.visited } := by
  simp only [walk]
  cases G.visit a with
  | error e => rfl
  | ok note =>
    dsimp only [Except.bind]
    cases (G.successors note).foldlM (fun w b => walk G n b w)
      { w with visiting := a :: w.visiting, notes := (a, note) :: w.notes } <;> rfl

/-- A walk whose reads are simulated is simulated. -/
theorem walkM_simulates {m : Type u → Type w} [Monad m] {R : ∀ {β : Type u}, m β → Except ε β → Prop}
    (H : Except.Simulates (m := m) R) {raise : ε → m (Walk α ν)} {visit : α → m ν}
    (hraise : ∀ e, R (raise e) (.error e))
    (hvisit : ∀ a, R (visit a) (G.visit a)) {n : ℕ} :
    R (walkM raise visit G.successors G.cycle G.deep n a w) (walk G n a w) := by
  induction n generalizing a w with
  | zero => exact hraise _
  | succ n ih =>
    rw [walk_succ]
    simp only [DepthFirst.walkM]
    split
    · exact hraise _
    split
    · exact H.pure w
    exact H.bind (hvisit a) fun note => H.bind (H.foldlM fun w b => ih) fun w' => H.pure _

end DepthFirst
