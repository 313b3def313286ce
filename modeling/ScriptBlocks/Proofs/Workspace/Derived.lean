import ScriptBlocks.Proofs.Reading.Lines

/-!
# Where blocks come from

The operations on a workspace change the fields, the flags and the links of its blocks, and some make
further blocks. None of them changes the form of a block or the way it connects, and unless a slot is
declared on it a block keeps the slots that it has. So each block that is there afterwards was there
before with the same frame, or is framed by the template of a form.

## Main definitions

* `Block.SameFrame` — two blocks differ in no more than fields, flags and links
* `Block.FramedBy` — a block has the frame of a template
* `Workspace.Derives` — each block was there before, or is made after a form of a vocabulary

## Main statements

* `Workspace.Derives.construct` — building makes blocks after the forms of the vocabulary
* `Workspace.Derives.readDocument`, `Workspace.Derives.readAs` — and so does reading
-/

namespace ScriptBlocks

/-! ### Frames -/

/-- The slots of the block, as they are when they hold nothing. -/
def Block.emptySlots (b : Block) : OrderedMap String Slot :=
  b.slots.mapValues fun _ => Slot.hold none

/-- The blocks are of the same form, connect in the same way and have the same slots. -/
structure Block.SameFrame (b b' : Block) : Prop where
  form : b.form = b'.form
  shape : b.shape = b'.shape
  emptySlots : b.emptySlots = b'.emptySlots

/-- The block has the frame of a new block of the form. -/
def Block.FramedBy (b : Block) (form : Form) : Prop :=
  ∃ id fields, b.SameFrame (.ofTemplate id b.form form.template fields)

namespace Slot

@[simp] theorem hold_hold (x y : Option BlockId) (s : Slot) : (s.hold x).hold y = s.hold y := by
  cases s <;> rfl

end Slot

namespace Block

variable {b b' b'' : Block}

theorem SameFrame.refl (b : Block) : b.SameFrame b := ⟨rfl, rfl, rfl⟩

theorem SameFrame.symm (h : b.SameFrame b') : b'.SameFrame b :=
  ⟨h.form.symm, h.shape.symm, h.emptySlots.symm⟩

theorem SameFrame.trans (h : b.SameFrame b') (h' : b'.SameFrame b'') : b.SameFrame b'' :=
  ⟨h.form.trans h'.form, h.shape.trans h'.shape, h.emptySlots.trans h'.emptySlots⟩

/-- What the slots hold is not a part of the frame. -/
theorem sameFrame_mapValues (b : Block) {f : String → Slot → Slot}
    (hf : ∀ name s, (f name s).hold none = s.hold none) :
    b.SameFrame { b with slots := b.slots.mapValues f } := by
  refine ⟨rfl, rfl, OrderedMap.ext ?_⟩
  simp [emptySlots, OrderedMap.mapValues, hf]

theorem sameFrame_hold (b : Block) (slot : String) (occupant : Option BlockId) :
    b.SameFrame { b with slots := b.slots.modify slot (Slot.hold occupant) } := by
  refine b.sameFrame_mapValues fun name s => ?_
  split
  · exact s.hold_hold occupant none
  · rfl

theorem sameFrame_release (b : Block) (id : BlockId) : b.SameFrame (b.release id) := by
  rw [release]
  split
  · exact ⟨rfl, rfl, rfl⟩
  · refine b.sameFrame_mapValues fun name s => ?_
    split
    · exact s.hold_hold none none
    · rfl

theorem FramedBy.of_sameFrame {form : Form} (h : b.FramedBy form) (hsame : b.SameFrame b') :
    b'.FramedBy form := by
  obtain ⟨id, fields, hframe⟩ := h
  exact ⟨id, fields, hsame.form ▸ hsame.symm.trans hframe⟩

end Block

namespace Workspace

/-- Each block of `w` is one of `w₀` with the same frame, or is framed by a form of the
vocabulary. -/
def Derives (v : Vocabulary) (w₀ w : Workspace) : Prop :=
  ∀ ⦃id : BlockId⦄ ⦃b : Block⦄, w.find? id = some b →
    (∃ b₀, w₀.find? id = some b₀ ∧ b₀.SameFrame b) ∨
      ∃ form, v.find? b.form = some form ∧ b.FramedBy form

variable {w₀ w w' : Workspace} {v : Vocabulary} {id p c : BlockId} {slot : String}

namespace Derives

theorem refl (v : Vocabulary) (w : Workspace) : w.Derives v w :=
  fun _ b hb => .inl ⟨b, hb, .refl b⟩

/-! ### Single changes -/

theorem modify (h : w₀.Derives v w) (id : BlockId) {f : Block → Block}
    (hf : ∀ b : Block, b.SameFrame (f b)) : w₀.Derives v (w.modify id f) := by
  intro x b' hb'
  rw [find?_modify] at hb'
  split at hb'
  · obtain ⟨b, hb, rfl⟩ := Option.map_eq_some_iff.1 hb'
    rcases h hb with ⟨b₀, hb₀, hframe⟩ | ⟨form, hform, hframe⟩
    · exact .inl ⟨b₀, hb₀, hframe.trans (hf b)⟩
    · exact .inr ⟨form, (hf b).form ▸ hform, hframe.of_sameFrame (hf b)⟩
  · exact h hb'

theorem edit (h : w₀.Derives v w) {f : Block → Block} (hedit : w.edit id f = .ok w')
    (hf : ∀ b : Block, b.SameFrame (f b)) : w₀.Derives v w' := by
  obtain ⟨-, rfl⟩ := edit_eq_ok.1 hedit
  exact h.modify id hf

theorem forget (h : w₀.Derives v w) (ids : List BlockId) : w₀.Derives v (w.forget ids) := by
  intro x b hb
  rw [find?_forget] at hb
  split at hb
  · exact nomatch hb
  · exact h hb

theorem fill (h : w₀.Derives v w) (p : BlockId) (slot : String) (c : BlockId) :
    w₀.Derives v (w.fill p slot c) :=
  h.modify p fun b => b.sameFrame_hold slot (some c)

theorem own (h : w₀.Derives v w) (p c : BlockId) : w₀.Derives v (w.own p c) :=
  h.modify c fun _ => ⟨rfl, rfl, rfl⟩

theorem create (h : w₀.Derives v w) {form : String} {fields : Fields}
    (hcreate : w.create v form fields = .ok (id, w')) : w₀.Derives v w' := by
  obtain ⟨f, hf, rfl, rfl⟩ := create_eq_ok.1 hcreate
  intro x b hb
  rw [find?_addBlock] at hb
  split at hb
  · obtain rfl := Option.some.inj hb
    exact .inr ⟨f, Vocabulary.get_eq_ok_iff.1 hf, _, fields, .refl _⟩
  · exact h hb

theorem createShadow (h : w₀.Derives v w) {form : String} {fields : Fields}
    (hshadow : w.createShadow v form fields = .ok (id, w')) : w₀.Derives v w' := by
  obtain ⟨w₁, hcreate, rfl⟩ := createShadow_eq_ok.1 hshadow
  exact (h.create hcreate).modify id fun _ => ⟨rfl, rfl, rfl⟩

/-! ### Links -/

theorem disconnect (h : w₀.Derives v w) (hdisconnect : w.disconnect id = .ok w') :
    w₀.Derives v w' := by
  simp only [Workspace.disconnect, bind_eq_ok] at hdisconnect
  obtain ⟨b, -, hdisconnect⟩ := hdisconnect
  split at hdisconnect
  · exact Except.ok.inj hdisconnect ▸ h
  · simp only [bind_eq_ok, pure_eq_ok] at hdisconnect
    obtain ⟨w₁, hedit, rfl⟩ := hdisconnect
    exact (h.edit hedit (·.sameFrame_release id)).modify id fun _ => ⟨rfl, rfl, rfl⟩

theorem remove (h : w₀.Derives v w) {n : Nat} (hremove : w.remove id = .ok (n, w')) :
    w₀.Derives v w' := by
  simp only [Workspace.remove, bind_eq_ok, pure_eq_ok, Prod.mk.injEq] at hremove
  obtain ⟨w₁, hdisconnect, -, rfl⟩ := hremove
  exact (h.disconnect hdisconnect).forget _

theorem discard (h : w₀.Derives v w) (id : BlockId) : w₀.Derives v (w.discard id) := by
  rw [Workspace.discard]
  split
  · next hremove => exact h.remove hremove
  · exact h

theorem connectStatement (h : w₀.Derives v w) (hconnect : w.connectStatement p slot c = .ok w') :
    w₀.Derives v w' := by
  simp only [Workspace.connectStatement, bind_eq_ok, pure_eq_ok] at hconnect
  obtain ⟨_, -, rfl⟩ := hconnect
  exact (h.fill p slot c).own p c

theorem plug (h : w₀.Derives v w) (p : BlockId) (slot : String) (c : BlockId) :
    w₀.Derives v (w.plug p slot c).2 := by
  rw [Workspace.plug]
  dsimp only
  split
  · split
    · exact (h.fill p slot c).own p c
    · exact h.fill p slot c
  · exact h

theorem connectValue (h : w₀.Derives v w) (p : BlockId) (slot : String) (c : BlockId) :
    w₀.Derives v (w.connectValue p slot c).2 := by
  rw [Workspace.connectValue]
  split
  · exact h
  · exact h.plug p slot c
  · split
    · exact h
    · next hremove => exact (h.remove hremove).plug p slot c

theorem append (h : w₀.Derives v w) (head id : BlockId) : w₀.Derives v (w.append head id).2 := by
  rw [Workspace.append]
  split
  · next happend =>
    simp only [append?, bind_eq_ok, pure_eq_ok] at happend
    obtain ⟨last, -, rfl⟩ := happend
    refine (h.modify last ?_).own last id
    exact fun _ => ⟨rfl, rfl, rfl⟩
  · exact h

/-! ### Reading -/

theorem settle {r : Attempt Unit} (h : w₀.Derives v r.2) (id : BlockId) :
    w₀.Derives v (settle id r).2 := by
  rcases r with ⟨_ | ⟨⟩, w⟩
  · exact Derives.discard h id
  · exact h

theorem plugBuilt {r : Attempt BlockId} (h : w₀.Derives v r.2) (p : BlockId) (slot : String) :
    w₀.Derives v (plugBuilt p slot r).2 := by
  rcases r with ⟨e | child, w₁⟩
  · exact h
  · have hconnect := Derives.connectValue h p slot child
    rw [Workspace.plugBuilt]
    split
    · next hconnected =>
      rw [hconnected] at hconnect
      exact hconnect
    · next w₂ hconnected =>
      rw [hconnected] at hconnect
      split
      · next hremove => exact Derives.remove hconnect hremove
      · exact hconnect

theorem attachShadow (h : w₀.Derives v w) (p : BlockId) (slot form : String) (fields : Fields) :
    w₀.Derives v (attachShadow v w p slot form fields).2 := by
  rw [Workspace.attachShadow]
  split
  · exact h
  · next literal w₁ hcreate =>
    have hconnected := (h.createShadow hcreate).connectValue p slot literal
    split
    · next hconnect =>
      rw [hconnect] at hconnected
      exact hconnected
    · next hconnect =>
      rw [hconnect] at hconnected
      exact Derives.discard hconnected literal

section

variable {attach : Workspace → BlockId → String → String → Attempt Unit}
  (hattach : ∀ {w : Workspace}, w₀.Derives v w → ∀ p slot text, w₀.Derives v (attach w p slot text).2)
include hattach

theorem attachAll (h : w₀.Derives v w) (p : BlockId) (arguments : List (String × String)) :
    w₀.Derives v (attachAll (attach · p) arguments w).2 := by
  induction arguments generalizing w with
  | nil => exact h
  | cons argument arguments ih =>
    obtain ⟨slot, text⟩ := argument
    have hw₁ := hattach h p slot text
    rw [Workspace.attachAll]
    split
    · next hattached =>
      rw [hattached] at hw₁
      exact ih hw₁
    · next hattached =>
      rw [hattached] at hw₁
      exact hw₁

theorem fillSlots (h : w₀.Derives v w) (p : BlockId) (form : Form) (fields : Fields) :
    w₀.Derives v (fillSlots v attach w p form fields).2 := by
  rw [Workspace.fillSlots]
  split
  · exact h
  · exact attachAll hattach h p _
  · next slot literal field fallback _ =>
    split
    · exact h
    · next value _ =>
      have hshadow := h.attachShadow p slot literal (.ofList [(field, value)])
      generalize Workspace.attachShadow v w p slot literal (.ofList [(field, value)]) = r at hshadow
      rcases r with ⟨_ | _, w₁⟩
      · exact hshadow
      · exact hshadow

theorem construct (h : w₀.Derives v w) (form : Form) (fields : Fields) :
    w₀.Derives v (construct v attach w form fields).2 := by
  cases hcreate : w.create v form.name (form.keptFields fields) with
  | error e =>
    rw [construct_of_create_error hcreate]
    exact h
  | ok r =>
    obtain ⟨id, w₁⟩ := r
    rw [construct_of_create_ok hcreate]
    exact (fillSlots hattach (h.create hcreate) id form fields).settle id

end

theorem attachArgument (h : w₀.Derives v w) (n : Nat) (p : BlockId) (slot text : String) :
    w₀.Derives v (attachArgument v n w p slot text).2 := by
  induction n generalizing w p slot text with
  | zero => exact h
  | succ n ih =>
    rw [attachArgument_succ]
    split
    · exact h
    · exact h
    · next form given _ =>
      exact (construct (fun h p slot text => ih h p slot text) h form given).plugBuilt p slot

theorem build (h : w₀.Derives v w) (line : String) (form : Form) (c : Capture) :
    w₀.Derives v (build v w line form c).2 := by
  rw [Workspace.build]
  split
  · exact h
  · next fields _ => exact h.construct (fun h => h.attachArgument _) form fields

theorem readLine (h : w₀.Derives v w) (o : ReadingOptions) (line : String) :
    w₀.Derives v (w.readLine o v line).2 := by
  have hcases := readLine_cases o v w line
  generalize readLineCreations o v w line = n at hcases
  generalize w.readLine o v line = r at hcases ⊢
  generalize String.ofList (Text.trim line.toList) = line at hcases
  obtain ⟨result, w'⟩ := r
  cases hcases with
  | ignored | unmatched => exact h
  | @failed form c _ _ _ _ hbuild | @built form c _ _ _ _ hbuild =>
    have hbuilt := h.build line form c
    rwa [hbuild] at hbuilt

theorem readLines (h : w₀.Derives v w) (o : ReadingOptions) (lines : List String) :
    w₀.Derives v (readLines o v lines w).2 := by
  induction lines generalizing w with
  | nil => exact h
  | cons line lines ih =>
    rw [readLines_cons]
    exact ih (h.readLine o line)

theorem linkAll (h : w₀.Derives v w) (ids : List BlockId) : w₀.Derives v (linkAll ids w).2 := by
  induction ids generalizing w with
  | nil => exact h
  | cons first ids ih =>
    cases ids with
    | nil => exact h
    | cons second ids => exact ih (h.append first second)

theorem readDocument (h : w₀.Derives v w) (o : ReadingOptions) (text : String) :
    w₀.Derives v (w.readDocument o v text).2 := by
  rw [Workspace.readDocument]
  exact (h.readLines o _).linkAll _

theorem readAs (h : w₀.Derives v w) (text form : String) : w₀.Derives v (readAs v w text form).2 := by
  rw [Workspace.readAs]
  split
  · exact h
  · next f _ =>
    split
    · exact h
    · next c _ =>
      have hbuild := h.build text f c
      split
      · next hbuilt =>
        rw [hbuilt] at hbuild
        exact hbuild
      · next hbuilt =>
        rw [hbuilt] at hbuild
        exact hbuild

end Derives

end Workspace

end ScriptBlocks
