import Mathlib.Data.List.Forall2
import ScriptBlocks.Error

/-!
# Inverting computations that may fail

A computation that gave a result has passed each of its steps. One that goes through a list gives a
result if each of its steps does, and fails with the error of one of them.
-/

namespace ScriptBlocks

variable {ε α β : Type}

theorem bind_eq_ok {x : Except ε α} {f : α → Except ε β} {b : β} :
    (x >>= f) = .ok b ↔ ∃ a, x = .ok a ∧ f a = .ok b := by
  cases x with
  | error e => exact iff_of_false nofun fun ⟨_, h, _⟩ => nomatch h
  | ok a => exact ⟨fun h => ⟨a, rfl, h⟩, fun ⟨_, h, hf⟩ => Except.ok.inj h ▸ hf⟩

theorem throw_bind_eq_ok {e : ε} {f : α → Except ε β} {b : β} :
    ((throw e : Except ε α) >>= f) = .ok b ↔ False :=
  iff_of_false nofun id

theorem throw_eq_ok {e : ε} {b : β} : (throw e : Except ε β) = .ok b ↔ False :=
  iff_of_false nofun id

/-- A check at the end of a computation was passed. -/
theorem ite_throw_eq_ok {c : Prop} [Decidable c] {e : ε} {x : Except ε β} {b : β} :
    (if c then throw e else x) = .ok b ↔ ¬ c ∧ x = .ok b := by
  by_cases h : c
  · rw [if_pos h]
    exact iff_of_false nofun fun h' => h'.1 h
  · rw [if_neg h]
    exact (and_iff_right h).symm

/-- A check with more to come was passed. -/
theorem ite_throw_bind_eq_ok {c : Prop} [Decidable c] {e : ε} {f : α → Except ε β}
    {x : Except ε β} {b : β} :
    (if c then (throw e : Except ε α) >>= f else x) = .ok b ↔ ¬ c ∧ x = .ok b :=
  ite_throw_eq_ok

theorem pure_eq_ok {a b : α} : (pure a : Except ε α) = .ok b ↔ a = b :=
  ⟨Except.ok.inj, congrArg _⟩

theorem bind_eq_error {x : Except ε α} {f : α → Except ε β} {e : ε} :
    (x >>= f) = .error e ↔ x = .error e ∨ ∃ a, x = .ok a ∧ f a = .error e := by
  cases x with
  | error e' =>
    exact ⟨fun h => .inl (congrArg _ (Except.error.inj h)), fun
      | .inl h => congrArg _ (Except.error.inj h)
      | .inr ⟨_, h, _⟩ => nomatch h⟩
  | ok a =>
    exact ⟨fun h => .inr ⟨a, rfl, h⟩, fun
      | .inl h => nomatch h
      | .inr ⟨_, h, hf⟩ => Except.ok.inj h ▸ hf⟩

theorem map_eq_ok {x : Except ε α} {f : α → β} {b : β} :
    x.map f = .ok b ↔ ∃ a, x = .ok a ∧ f a = b := by
  cases x with
  | error e => exact iff_of_false nofun fun ⟨_, h, _⟩ => nomatch h
  | ok a => exact ⟨fun h => ⟨a, rfl, Except.ok.inj h⟩, fun ⟨_, h, hf⟩ => Except.ok.inj h ▸ congrArg _ hf⟩

theorem map_eq_error {x : Except ε α} {f : α → β} {e : ε} : x.map f = .error e ↔ x = .error e := by
  cases x with
  | error e' => exact ⟨fun h => congrArg _ (Except.error.inj h), fun h => congrArg _ (Except.error.inj h)⟩
  | ok a => exact iff_of_false nofun nofun

theorem exists_map_eq_ok_iff {x : Except ε α} {f : α → β} :
    (∃ b, x.map f = .ok b) ↔ ∃ a, x = .ok a := by
  simp only [map_eq_ok]
  exact ⟨fun ⟨_, a, h, _⟩ => ⟨a, h⟩, fun ⟨a, h⟩ => ⟨_, a, h, rfl⟩⟩

/-- What is made of a result at the end of a computation cannot fail. -/
theorem exists_bind_pure_eq_ok_iff {x : Except ε α} {f : α → β} :
    (∃ b, (x >>= fun a => pure (f a)) = .ok b) ↔ ∃ a, x = .ok a := by
  simp only [bind_eq_ok, pure_eq_ok]
  exact ⟨fun ⟨_, a, h, _⟩ => ⟨a, h⟩, fun ⟨a, h⟩ => ⟨_, a, h, rfl⟩⟩

theorem not_exists_error_eq_ok {e : ε} : ¬ ∃ a : α, (.error e : Except ε α) = .ok a :=
  fun ⟨_, h⟩ => nomatch h

/-! ### Along a list -/

section List

variable {l : List α}

theorem mapM_congr_of_mem {f g : α → Except ε β} (h : ∀ x ∈ l, f x = g x) :
    l.mapM f = l.mapM g := by
  induction l with
  | nil => rfl
  | cons x l ih =>
    rw [List.mapM_cons, List.mapM_cons, h x List.mem_cons_self,
      ih fun y hy => h y (List.mem_cons_of_mem x hy)]

theorem foldlM_congr_of_mem {f g : β → α → Except ε β} (b : β)
    (h : ∀ b, ∀ x ∈ l, f b x = g b x) : l.foldlM f b = l.foldlM g b := by
  induction l generalizing b with
  | nil => rfl
  | cons x l ih =>
    rw [List.foldlM_cons, List.foldlM_cons, h b x List.mem_cons_self]
    exact bind_congr fun b => ih b fun b y hy => h b y (List.mem_cons_of_mem x hy)

theorem mapM_eq_ok_iff {f : α → Except ε β} {ys : List β} :
    l.mapM f = .ok ys ↔ List.Forall₂ (fun x y => f x = .ok y) l ys := by
  induction l generalizing ys with
  | nil =>
    rw [List.mapM_nil, pure_eq_ok, List.forall₂_nil_left_iff]
    exact eq_comm
  | cons x l ih =>
    simp only [List.mapM_cons, bind_eq_ok, pure_eq_ok, ih, List.forall₂_cons_left_iff]
    constructor
    · rintro ⟨y, hy, ys', hys, rfl⟩
      exact ⟨y, ys', hy, hys, rfl⟩
    · rintro ⟨y, ys', hy, hys, rfl⟩
      exact ⟨y, hy, ys', hys, rfl⟩

theorem exists_of_mem_mapM {f : α → Except ε β} {ys : List β} {y : β} (h : l.mapM f = .ok ys)
    (hy : y ∈ ys) : ∃ x ∈ l, f x = .ok y := by
  rw [mapM_eq_ok_iff] at h
  induction h with
  | nil => exact absurd hy List.not_mem_nil
  | cons hfirst _ ih =>
    rcases List.mem_cons.1 hy with rfl | hy
    · exact ⟨_, List.mem_cons_self, hfirst⟩
    · obtain ⟨x, hx, hfx⟩ := ih hy
      exact ⟨x, List.mem_cons_of_mem _ hx, hfx⟩

theorem mem_of_mapM_eq_ok {f : α → Except ε β} {ys : List β} {x : α} {y : β}
    (h : l.mapM f = .ok ys) (hx : x ∈ l) (hy : f x = .ok y) : y ∈ ys := by
  rw [mapM_eq_ok_iff] at h
  induction h with
  | nil => exact absurd hx List.not_mem_nil
  | cons hz _ ih =>
    rcases List.mem_cons.1 hx with rfl | hx
    · obtain rfl := Except.ok.inj (hy.symm.trans hz)
      exact List.mem_cons_self
    · exact List.mem_cons_of_mem _ (ih hx)

theorem exists_mapM_eq_ok_iff {f : α → Except ε β} :
    (∃ ys, l.mapM f = .ok ys) ↔ ∀ x ∈ l, ∃ y, f x = .ok y := by
  simp only [mapM_eq_ok_iff]
  induction l with
  | nil => exact iff_of_true ⟨[], .nil⟩ fun _ h => absurd h List.not_mem_nil
  | cons x l ih =>
    rw [List.forall_mem_cons, ← ih]
    constructor
    · rintro ⟨_, h⟩
      obtain ⟨y, ys, hy, hys, -⟩ := List.forall₂_cons_left_iff.1 h
      exact ⟨⟨y, hy⟩, ys, hys⟩
    · rintro ⟨⟨y, hy⟩, ys, hys⟩
      exact ⟨y :: ys, .cons hy hys⟩

theorem exists_of_mapM_eq_error {f : α → Except ε β} {e : ε} (h : l.mapM f = .error e) :
    ∃ x ∈ l, f x = .error e := by
  induction l with
  | nil => exact nomatch h
  | cons x l ih =>
    rw [List.mapM_cons, bind_eq_error] at h
    rcases h with h | ⟨y, -, h⟩
    · exact ⟨x, List.mem_cons_self, h⟩
    · rcases bind_eq_error.1 h with h | ⟨ys, -, h⟩
      · obtain ⟨x', hx', h⟩ := ih h
        exact ⟨x', List.mem_cons_of_mem x hx', h⟩
      · exact nomatch h

/-- Whether a step gives a result may not depend on what has been gathered before. -/
theorem exists_foldlM_eq_ok_iff {f : β → α → Except ε β} {P : α → Prop} (b : β)
    (h : ∀ b, ∀ x ∈ l, (∃ b', f b x = .ok b') ↔ P x) :
    (∃ b', l.foldlM f b = .ok b') ↔ ∀ x ∈ l, P x := by
  induction l generalizing b with
  | nil => exact iff_of_true ⟨b, rfl⟩ fun _ h => absurd h List.not_mem_nil
  | cons x l ih =>
    have hrest (b : β) := ih b fun b y hy => h b y (List.mem_cons_of_mem x hy)
    simp only [List.foldlM_cons, bind_eq_ok, List.forall_mem_cons, ← h b x List.mem_cons_self]
    constructor
    · rintro ⟨b', b₁, hb₁, hb'⟩
      exact ⟨⟨b₁, hb₁⟩, (hrest b₁).1 ⟨b', hb'⟩⟩
    · rintro ⟨⟨b₁, hb₁⟩, hall⟩
      obtain ⟨b', hb'⟩ := (hrest b₁).2 hall
      exact ⟨b', b₁, hb₁, hb'⟩

theorem exists_of_foldlM_eq_error {f : β → α → Except ε β} {b : β} {e : ε}
    (h : l.foldlM f b = .error e) : ∃ x ∈ l, ∃ b, f b x = .error e := by
  induction l generalizing b with
  | nil => exact nomatch h
  | cons x l ih =>
    rw [List.foldlM_cons, bind_eq_error] at h
    rcases h with h | ⟨b₁, -, h⟩
    · exact ⟨x, List.mem_cons_self, b, h⟩
    · obtain ⟨x', hx', h⟩ := ih h
      exact ⟨x', List.mem_cons_of_mem x hx', h⟩

theorem exists_of_mem_foldlM {f : β → α → Except ε β} {b b' : β} {x : α}
    (h : l.foldlM f b = .ok b') (hx : x ∈ l) : ∃ b₁ b₂, f b₁ x = .ok b₂ := by
  induction l generalizing b with
  | nil => exact absurd hx List.not_mem_nil
  | cons y l ih =>
    rw [List.foldlM_cons, bind_eq_ok] at h
    obtain ⟨b₁, hfirst, h⟩ := h
    rcases List.mem_cons.1 hx with rfl | hx
    · exact ⟨b, b₁, hfirst⟩
    · exact ih h hx

end List

end ScriptBlocks
