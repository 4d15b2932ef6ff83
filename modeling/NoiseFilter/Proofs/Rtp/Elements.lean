import NoiseFilter.Rtp.Packet

/-!
# Extension blocks as they are laid out

An extension block is read item by item, and an item is a byte of padding or an element. What
`ElementForm.spell` writes, `ElementForm.readElements` reads again, provided that the form can write
the element at all: the one-byte form has no room for more than sixteen bytes, and neither form may
begin an element with a zero byte, which would be padding.

* `ElementForm.Admits` – the elements that a form can write;
* `Item` – what stands in a block, with `Item.spell` its bytes;
* `ElementForm.Reads` – the three ways in which reading a block ends: the block is **filled**, it is
  **stopped** by the reserved id, or its last element is **cut off** by the end of the input.

`ElementForm.reads` says that reading ends in one of these ways whatever the input is, and
`ElementForm.readElements_items` that items are read as they were written. Everything else about
blocks follows from these two.
-/

namespace NoiseFilter.Rtp

namespace ElementForm

/-- **What a form can write.** The id 15 of the one-byte form is taken, and its id 0 with a single byte
would be a byte of padding. -/
def Admits (form : ElementForm) (e : Element) : Prop :=
  match form with
  | .oneByte => e.id.toNat < 15 ∧ 0 < e.payload.length ∧ e.payload.length ≤ 16 ∧
      (e.id = 0 → 1 < e.payload.length)
  | .twoByte => e.id ≠ 0 ∧ e.payload.length ≤ 255
  | .whole => True

@[simp] theorem length_spell (form : ElementForm) (e : Element) :
    (form.spell e).length = form.overhead + e.payload.length := by
  cases form <;> simp [spell, overhead] <;> omega

theorem overhead_pos {form : ElementForm} (hform : form ≠ .whole) : 0 < form.overhead := by
  cases form with
  | oneByte => exact Nat.zero_lt_one
  | twoByte => exact Nat.zero_lt_two
  | whole => exact absurd rfl hform

/-! ### The mark of an element -/

/-- **A written element is recognised** by what stands before its bytes. -/
theorem mark?_spell {form : ElementForm} {e : Element} (hform : form ≠ .whole)
    (he : form.Admits e) (rest : Bytes) :
    form.mark? (form.spell e ++ rest) = some (.element e.id e.payload.length, e.payload ++ rest) := by
  cases form with
  | oneByte =>
    -- four bits of id and four of length share a byte, which is neither zero nor reserved
    obtain ⟨hid, hpos, hsize, hzero⟩ := he
    obtain ⟨b, hb⟩ : ∃ b, UInt8.ofNat (e.id.toNat * 16 + (e.payload.length - 1)) = b := ⟨_, rfl⟩
    have hval : b.toNat = e.id.toNat * 16 + (e.payload.length - 1) := by
      rw [← hb, UInt8.toNat_ofNat']
      omega
    have hb0 : b ≠ 0 := by
      rintro rfl
      have hid0 : e.id = 0 := UInt8.toNat_inj.1 (by
        change e.id.toNat = 0
        change 0 = _ at hval
        omega)
      have := hzero hid0
      change 0 = _ at hval
      omega
    have hid' : b / 16 = e.id := by
      apply UInt8.toNat_inj.1
      rw [UInt8.toNat_div, hval]
      change _ / 16 = _
      omega
    have hlen : (b % 16).toNat + 1 = e.payload.length := by
      rw [UInt8.toNat_mod, hval]
      change _ % 16 + 1 = _
      omega
    have hstop : e.id ≠ reservedId := by
      rintro h
      rw [h] at hid
      exact absurd hid (by decide)
    simp only [spell, hb, List.cons_append, mark?, hb0, if_false, hid', hstop, hlen]
  | twoByte =>
    obtain ⟨hid, hsize⟩ := he
    have hlen : (UInt8.ofNat e.payload.length).toNat = e.payload.length := by
      rw [UInt8.toNat_ofNat']
      omega
    simp only [spell, List.cons_append, mark?, hid, if_false, hlen]
  | whole => exact absurd rfl hform

/-- **A recognised element is one that the form can write**, and what stands before its bytes is what
the form writes there. -/
theorem spell_of_mark? {form : ElementForm} {input rest : Bytes} {id : UInt8} {size : Nat}
    (h : form.mark? input = some (.element id size, rest)) {payload : Bytes}
    (hp : payload.length = size) :
    form.Admits ⟨id, payload⟩ ∧ ∃ front, form.spell ⟨id, payload⟩ = front ++ payload ∧
      input = front ++ rest := by
  rcases input with _ | ⟨b, input⟩
  · simp [mark?] at h
  by_cases hb : b = 0
  · simp [mark?, hb] at h
  cases form with
  | oneByte =>
    by_cases hstop : b / 16 = reservedId
    · simp [mark?, hb, hstop] at h
    simp only [mark?, hb, if_false, hstop, Option.some.injEq, Prod.mk.injEq, Mark.element.injEq] at h
    obtain ⟨⟨rfl, rfl⟩, rfl⟩ := h
    have hid : (b / 16).toNat = b.toNat / 16 := UInt8.toNat_div b 16
    have hlow : (b % 16).toNat = b.toNat % 16 := UInt8.toNat_mod b 16
    have hlt := b.toNat_lt
    have hne : (b / 16).toNat ≠ 15 := fun h15 => hstop (UInt8.toNat_inj.1 h15)
    have hb0 : b.toNat ≠ 0 := fun h0 => hb (UInt8.toNat_inj.1 h0)
    -- the two halves of the byte make it up again
    have hback : UInt8.ofNat ((b / 16).toNat * 16 + (payload.length - 1)) = b := by
      apply UInt8.toNat_inj.1
      rw [UInt8.toNat_ofNat']
      omega
    refine ⟨⟨?_, ?_, ?_, fun h0 => ?_⟩, [b], ?_, rfl⟩
    · change (b / 16).toNat < 15
      omega
    · change 0 < payload.length
      omega
    · change payload.length ≤ 16
      omega
    · change 1 < payload.length
      have : (b / 16).toNat = 0 := congrArg UInt8.toNat h0
      omega
    · rw [spell, hback]
      rfl
  | twoByte =>
    rcases input with _ | ⟨c, input⟩
    · simp [mark?, hb] at h
    simp only [mark?, hb, if_false, Option.some.injEq, Prod.mk.injEq, Mark.element.injEq] at h
    obtain ⟨⟨rfl, rfl⟩, rfl⟩ := h
    have hc := c.toNat_lt
    refine ⟨⟨hb, ?_⟩, [b, c], ?_, rfl⟩
    · change payload.length ≤ 255
      omega
    · rw [spell, hp, UInt8.ofNat_toNat]
      rfl
  | whole => simp [mark?, hb] at h

theorem eq_of_mark?_padding {form : ElementForm} {input rest : Bytes}
    (h : form.mark? input = some (.padding, rest)) : input = 0 :: rest := by
  rcases input with _ | ⟨b, input⟩
  · simp [mark?] at h
  by_cases hb : b = 0
  · simp only [mark?, hb, if_true, Option.some.injEq, Prod.mk.injEq, true_and] at h
    rw [hb, h]
  · exfalso
    simp only [mark?, hb, if_false] at h
    split at h
    · split at h <;> simp at h
    all_goals simp at h

theorem eq_of_mark?_stop {form : ElementForm} {input rest : Bytes}
    (h : form.mark? input = some (.stop, rest)) : ∃ b, input = b :: rest := by
  rcases input with _ | ⟨b, input⟩
  · simp [mark?] at h
  by_cases hb : b = 0
  · simp [mark?, hb] at h
  simp only [mark?, hb, if_false] at h
  split at h
  · split at h
    · obtain ⟨-, rfl⟩ := by simpa using h
      exact ⟨b, rfl⟩
    · simp at h
  · simp at h
  · simp at h
  · obtain ⟨-, rfl⟩ := by simpa using h
    exact ⟨b, rfl⟩

end ElementForm

/-! ### Items -/

/-- What stands in a block: a byte of padding, or an element. -/
inductive Item
  | padding
  | element (e : Element)

namespace Item

/-- The bytes of an item. -/
def spell (form : ElementForm) : Item → Bytes
  | padding => [0]
  | element e => form.spell e

/-- Whether a form can write an item. -/
def Admitted (form : ElementForm) : Item → Prop
  | padding => True
  | element e => form.Admits e

/-- The bytes of a run of items. -/
def spellAll (form : ElementForm) (items : List Item) : Bytes := items.flatMap (spell form)

/-- The elements among some items. -/
def elements (items : List Item) : List Element :=
  items.filterMap fun i => match i with
    | padding => none
    | element e => some e

/-- The bytes of padding among some items. -/
def paddings : List Item → Nat
  | [] => 0
  | padding :: items => paddings items + 1
  | element _ :: items => paddings items

@[simp] theorem spellAll_nil (form : ElementForm) : spellAll form [] = [] := rfl

@[simp] theorem spellAll_cons (form : ElementForm) (i : Item) (items : List Item) :
    spellAll form (i :: items) = i.spell form ++ spellAll form items := rfl

@[simp] theorem elements_nil : elements [] = [] := rfl

@[simp] theorem elements_padding (items : List Item) :
    elements (padding :: items) = elements items := rfl

@[simp] theorem elements_element (e : Element) (items : List Item) :
    elements (element e :: items) = e :: elements items := rfl

theorem admits_of_mem_elements {form : ElementForm} {items : List Item}
    (h : ∀ i ∈ items, i.Admitted form) {e : Element} (he : e ∈ elements items) :
    form.Admits e := by
  obtain ⟨i, hi, hie⟩ := List.mem_filterMap.1 he
  cases i with
  | padding => simp at hie
  | element e' =>
    obtain rfl : e' = e := by simpa using hie
    exact h _ hi

/-- The bytes of some items are those of the elements among them, and the padding. -/
theorem length_spellAll (form : ElementForm) (items : List Item) :
    (spellAll form items).length =
      ((elements items).flatMap form.spell).length + paddings items := by
  induction items with
  | nil => rfl
  | cons i items ih =>
    cases i with
    | padding =>
      rw [spellAll_cons, List.length_append, ih, elements_padding, paddings, spell]
      simp
      omega
    | element e =>
      rw [spellAll_cons, List.length_append, ih, elements_element, paddings, spell]
      simp
      omega

/-- What is read of some items, with `rest` after them. -/
def read (items : List Item) (rest : Bytes) : ElementForm.Elements :=
  ⟨elements items, paddings items, rest⟩

/-- What is read with one item more in front. -/
def before : Item → ElementForm.Elements → ElementForm.Elements
  | padding, r => { r with padding := r.padding + 1 }
  | element e, r => { r with elements := e :: r.elements }

@[simp] theorem before_read (i : Item) (items : List Item) (rest : Bytes) :
    i.before (read items rest) = read (i :: items) rest := by
  cases i <;> rfl

/-- Elements, with so many bytes of padding after the last of them. -/
def trailing (elements : List Element) (zeros : Nat) : List Item :=
  elements.map element ++ List.replicate zeros padding

theorem spellAll_trailing (form : ElementForm) (elements : List Element) (zeros : Nat) :
    spellAll form (trailing elements zeros) = elements.flatMap form.spell ++ Bytes.zeros zeros := by
  rw [trailing, spellAll, List.flatMap_append, List.flatMap_map]
  congr 1
  induction zeros with
  | zero => rfl
  | succ n ih =>
    rw [List.replicate_succ, List.flatMap_cons, ih]
    rfl

theorem read_trailing (elements : List Element) (zeros : Nat) (rest : Bytes) :
    read (trailing elements zeros) rest = ⟨elements, zeros, rest⟩ := by
  induction elements with
  | nil =>
    induction zeros with
    | zero => rfl
    | succ n ih =>
      change read (padding :: trailing [] n) rest = _
      rw [← before_read, ih]
      rfl
  | cons e elements ih =>
    change read (element e :: trailing elements zeros) rest = _
    rw [← before_read, ih]
    rfl

end Item

namespace ElementForm

/-- **Cut off**: an element begins, but the input ends inside it. -/
def CutOff (form : ElementForm) (input : Bytes) : Prop :=
  form.mark? input = none ∨
    ∃ id size rest, form.mark? input = some (.element id size, rest) ∧ rest.length < size

/-- **How reading a block ends.** `left` bytes of the block are left, `input` is all that is left of the
packet; items are read while the block is not filled. -/
inductive Reads (form : ElementForm) (left : Nat) (input : Bytes) : Option Elements → Prop
  /-- The block is filled; its last element may reach beyond it. -/
  | filled (items : List Item) (rest : Bytes) (hitems : ∀ i ∈ items, i.Admitted form)
      (hinput : input = Item.spellAll form items ++ rest)
      (hleft : left ≤ (Item.spellAll form items).length) :
      Reads form left input (some (Item.read items rest))
  /-- A byte with the reserved id stops the block. -/
  | stopped (items : List Item) (stop : UInt8) (rest : Bytes)
      (hitems : ∀ i ∈ items, i.Admitted form)
      (hinput : input = Item.spellAll form items ++ stop :: rest)
      (hleft : (Item.spellAll form items).length < left) :
      Reads form left input (some (Item.read items rest))
  /-- The input ends inside an element. -/
  | cutOff (items : List Item) (rest : Bytes) (hitems : ∀ i ∈ items, i.Admitted form)
      (hinput : input = Item.spellAll form items ++ rest)
      (hleft : (Item.spellAll form items).length < left) (hrest : form.CutOff rest) :
      Reads form left input none

/-- One item in front of a block that is read. -/
theorem Reads.cons {form : ElementForm} {left : Nat} {input : Bytes} {r : Option Elements}
    {i : Item} (hi : i.Admitted form) (h : form.Reads (left - (i.spell form).length) input r) :
    0 < left → form.Reads left (i.spell form ++ input) (r.map i.before) := by
  intro hpos
  cases h with
  | filled items rest hitems hinput hleft =>
    rw [Option.map_some, Item.before_read]
    refine .filled (i :: items) rest (List.forall_mem_cons.2 ⟨hi, hitems⟩) ?_ ?_
    · rw [hinput, Item.spellAll_cons, List.append_assoc]
    · rw [Item.spellAll_cons, List.length_append]
      omega
  | stopped items stop rest hitems hinput hleft =>
    rw [Option.map_some, Item.before_read]
    refine .stopped (i :: items) stop rest (List.forall_mem_cons.2 ⟨hi, hitems⟩) ?_ ?_
    · rw [hinput, Item.spellAll_cons, List.append_assoc]
    · rw [Item.spellAll_cons, List.length_append]
      omega
  | cutOff items rest hitems hinput hleft hrest =>
    refine .cutOff (i :: items) rest (List.forall_mem_cons.2 ⟨hi, hitems⟩) ?_ ?_ hrest
    · rw [hinput, Item.spellAll_cons, List.append_assoc]
    · rw [Item.spellAll_cons, List.length_append]
      omega

/-- **Reading a block ends in one of three ways**, whatever the input is. -/
theorem reads (form : ElementForm) (left : Nat) (input : Bytes) :
    form.Reads left input (form.readElements left input) := by
  -- along the reader's own recursion: the first three cases end the block, the next two go on
  fun_induction readElements form left input with
  | case1 input => exact .filled [] input (by simp) rfl (Nat.zero_le _)
  | case2 left input hleft hmark =>
    exact .cutOff [] input (by simp) rfl (Nat.pos_of_ne_zero hleft) (.inl hmark)
  | case3 left input hleft rest hmark =>
    obtain ⟨b, rfl⟩ := eq_of_mark?_stop hmark
    exact .stopped [] b rest (by simp) rfl (Nat.pos_of_ne_zero hleft)
  | case4 left input hleft rest hmark ih =>
    rw [eq_of_mark?_padding hmark]
    exact Reads.cons (i := .padding) trivial ih (Nat.pos_of_ne_zero hleft)
  | case5 left input hleft id size rest hmark payload hsize =>
    refine .cutOff [] input (by simp) rfl (Nat.pos_of_ne_zero hleft) (.inr ⟨id, size, rest, hmark, ?_⟩)
    rw [List.length_take] at hsize
    omega
  | case6 left input hleft id size rest hmark payload hsize ih =>
    have hlen : payload.length = size := by
      have : payload.length ≤ size := List.length_take_le size rest
      omega
    obtain ⟨hadm, front, hspell, hinput⟩ := spell_of_mark? hmark hlen
    -- the form of whole blocks has no elements to mark
    have hform : form ≠ .whole := by
      rintro rfl
      rcases input with _ | ⟨b, input⟩
      · simp [mark?] at hmark
      · by_cases hb : b = 0 <;> simp [mark?, hb] at hmark
    have hpos := overhead_pos hform
    have hback : input = form.spell ⟨id, payload⟩ ++ rest.drop size := by
      rw [hspell, hinput, List.append_assoc, List.take_append_drop]
    rw [hback]
    refine Reads.cons (i := .element ⟨id, payload⟩) hadm ?_ (Nat.pos_of_ne_zero hleft)
    rw [Item.spell, length_spell, ← Nat.max_eq_right (show 1 ≤ form.overhead + payload.length by omega), hlen]
    exact ih

/-! ### Items are read as they were written -/

theorem readElements_zero (form : ElementForm) (input : Bytes) :
    form.readElements 0 input = some (Item.read [] input) := by
  rw [readElements, if_pos rfl]
  rfl

theorem readElements_cons {form : ElementForm} (hform : form ≠ .whole) {i : Item}
    (hi : i.Admitted form) {left : Nat} (hleft : 0 < left) (rest : Bytes) :
    form.readElements left (i.spell form ++ rest) =
      (form.readElements (left - (i.spell form).length) rest).map i.before := by
  have hne : left ≠ 0 := by omega
  cases i with
  | padding =>
    rw [readElements, if_neg hne]
    simp only [Item.spell, List.cons_append, List.nil_append, mark?, if_true, List.length_cons,
      List.length_nil]
    rfl
  | element e =>
    have hpos := overhead_pos hform
    have htake : (e.payload ++ rest).take e.payload.length = e.payload := List.take_left
    have hdrop : (e.payload ++ rest).drop e.payload.length = rest := List.drop_left
    rw [readElements, if_neg hne, Item.spell, mark?_spell hform hi]
    simp only [htake, hdrop, Nat.lt_irrefl, if_false, length_spell]
    rw [Nat.max_eq_right (by omega)]
    rfl

/-- **Items are read as they were written**, and reading goes on after them, as long as the block has
room for them. -/
theorem readElements_items {form : ElementForm} (hform : form ≠ .whole) {items : List Item}
    (hitems : ∀ i ∈ items, i.Admitted form) :
    ∀ {left : Nat}, (Item.spellAll form items).length ≤ left → ∀ rest : Bytes,
      form.readElements left (Item.spellAll form items ++ rest) =
        (form.readElements (left - (Item.spellAll form items).length) rest).map
          fun r => items.foldr Item.before r := by
  induction items with
  | nil =>
    intro left _ rest
    simp
  | cons i items ih =>
    intro left hleft rest
    obtain ⟨hi, hrest⟩ := List.forall_mem_cons.1 hitems
    rw [Item.spellAll_cons, List.length_append] at hleft ⊢
    have hpos : 0 < (i.spell form).length := by
      cases i with
      | padding => exact Nat.zero_lt_one
      | element e =>
        have := overhead_pos hform
        rw [Item.spell, length_spell]
        omega
    rw [List.append_assoc, readElements_cons hform hi (by omega), ih hrest (by omega), Option.map_map,
      Nat.sub_sub]
    rfl

theorem foldr_before_read (items : List Item) (rest : Bytes) :
    items.foldr Item.before (Item.read [] rest) = Item.read items rest := by
  induction items with
  | nil => rfl
  | cons i items ih => rw [List.foldr_cons, ih, Item.before_read]

/-- **A block is read as it was written**: its elements, and zeros that fill it up. -/
theorem readElements_spell {form : ElementForm} (hform : form ≠ .whole) {elements : List Element}
    (helements : ∀ e ∈ elements, form.Admits e) (zeros : Nat) (rest : Bytes) :
    form.readElements ((elements.flatMap form.spell).length + zeros)
        (elements.flatMap form.spell ++ Bytes.zeros zeros ++ rest) =
      some ⟨elements, zeros, rest⟩ := by
  have hitems : ∀ i ∈ Item.trailing elements zeros, i.Admitted form := by
    intro i hi
    rcases List.mem_append.1 hi with hi | hi
    · obtain ⟨e, he, rfl⟩ := List.mem_map.1 hi
      exact helements e he
    · rw [(List.mem_replicate.1 hi).2]
      trivial
  have hlen := congrArg List.length (Item.spellAll_trailing form elements zeros)
  rw [List.length_append, Bytes.length_zeros] at hlen
  rw [← Item.spellAll_trailing, ← hlen, readElements_items hform hitems (Nat.le_refl _), Nat.sub_self,
    readElements_zero, Option.map_some, foldr_before_read, Item.read_trailing]

/-- **When reading overruns**: exactly when an element that begins inside the block is cut off by the
end of the input. -/
theorem readElements_eq_none_iff {form : ElementForm} (hform : form ≠ .whole) {left : Nat}
    {input : Bytes} :
    form.readElements left input = none ↔
      ∃ items rest, (∀ i ∈ items, Item.Admitted form i) ∧
        input = Item.spellAll form items ++ rest ∧
        (Item.spellAll form items).length < left ∧ form.CutOff rest := by
  constructor
  · intro h
    have hr := form.reads left input
    rw [h] at hr
    cases hr with
    | cutOff items rest hitems hinput hleft hrest => exact ⟨items, rest, hitems, hinput, hleft, hrest⟩
  · rintro ⟨items, rest, hitems, rfl, hleft, hrest⟩
    rw [readElements_items hform hitems (Nat.le_of_lt hleft), readElements,
      if_neg (Nat.sub_ne_zero_of_lt hleft)]
    rcases hrest with hmark | ⟨id, size, rest', hmark, hsize⟩
    · rw [hmark]
      rfl
    · rw [hmark]
      simp only [List.length_take]
      rw [if_pos (by omega)]
      rfl

/-! ### What was read -/

/-- **Reading yields elements that the form can write**, and takes from the input at least the bytes of
the elements and of the padding. -/
theorem admits_of_readElements {form : ElementForm} {left : Nat} {input : Bytes} {r : Elements}
    (h : form.readElements left input = some r) :
    (∀ e ∈ r.elements, form.Admits e) ∧
      (r.elements.flatMap form.spell).length + r.padding + r.rest.length ≤ input.length := by
  have hr := form.reads left input
  rw [h] at hr
  cases hr with
  | filled items rest hitems hinput hleft =>
    refine ⟨fun e he => Item.admits_of_mem_elements hitems he, ?_⟩
    rw [hinput, List.length_append, Item.length_spellAll]
    exact Nat.le_refl _
  | stopped items stop rest hitems hinput hleft =>
    refine ⟨fun e he => Item.admits_of_mem_elements hitems he, ?_⟩
    rw [hinput, List.length_append, Item.length_spellAll, List.length_cons]
    change _ + _ + rest.length ≤ _
    simp only [Item.read]
    omega

end ElementForm

end NoiseFilter.Rtp
