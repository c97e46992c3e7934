/-
# Prefix-free encodings

An encoding of values as strings is prefix-free on a set of values when no
encoding of one of them is a prefix of the encoding of another.  Encodings of one
length are prefix-free as soon as they are injective; a header followed by a body
is, when the header determines a key and the body is prefix-free for each key.
-/
import Mathlib

namespace PrefixCodes

variable {α β γ σ : Type*}

/-- `f` encodes the values in `s` so that the value can be read off the front of
any string that starts with its encoding. -/
def PrefixFreeOn (s : Set α) (f : α → List σ) : Prop :=
  ∀ a ∈ s, ∀ b ∈ s, ∀ u v, f a ++ u = f b ++ v → a = b

/-- No encoding is a prefix of another. -/
theorem PrefixFreeOn.eq_of_prefix {s : Set α} {f : α → List σ} (h : PrefixFreeOn s f) {a b : α}
    (ha : a ∈ s) (hb : b ∈ s) (hab : f a <+: f b) : a = b := by
  obtain ⟨u, hu⟩ := hab
  exact h a ha b hb u [] (by rw [hu, List.append_nil])

/-- Injective encodings of one length. -/
theorem prefixFreeOn_of_length {s : Set α} {f : α → List σ} (n : ℕ)
    (hlen : ∀ a ∈ s, (f a).length = n) (hinj : Set.InjOn f s) : PrefixFreeOn s f := by
  intro a ha b hb u v h
  exact hinj ha hb (List.append_inj h ((hlen a ha).trans (hlen b hb).symm)).1

/-- A header that determines a key, followed by a body that is prefix-free for
each key. -/
theorem prefixFreeOn_header_append {s : Set α} (key : α → γ) {head : γ → List σ}
    {body : α → List σ} (hhead : PrefixFreeOn (key '' s) head)
    (hbody : ∀ c, PrefixFreeOn {a ∈ s | key a = c} body) :
    PrefixFreeOn s fun a => head (key a) ++ body a := by
  intro a ha b hb u v h
  simp only [List.append_assoc] at h
  have hkey : key a = key b :=
    hhead _ (Set.mem_image_of_mem key ha) _ (Set.mem_image_of_mem key hb) _ _ h
  rw [hkey] at h
  exact hbody (key b) a ⟨ha, hkey⟩ b ⟨hb, rfl⟩ u v (List.append_cancel_left h)

/-- Re-indexing an encoding by an injective map. -/
theorem PrefixFreeOn.comp {t : Set β} {f : β → List σ} (h : PrefixFreeOn t f) {s : Set α}
    {g : α → β} (hg : Set.MapsTo g s t) (hinj : Set.InjOn g s) :
    PrefixFreeOn s (f ∘ g) :=
  fun _ ha _ hb u v huv => hinj ha hb (h _ (hg ha) _ (hg hb) u v huv)

/-- Two encodings, one behind the other. -/
theorem PrefixFreeOn.append {s : Set α} {t : Set β} {f : α → List σ} {g : β → List σ}
    (hf : PrefixFreeOn s f) (hg : PrefixFreeOn t g) :
    PrefixFreeOn (s ×ˢ t) fun x => f x.1 ++ g x.2 := by
  rintro ⟨a, b⟩ ⟨ha, hb⟩ ⟨a', b'⟩ ⟨ha', hb'⟩ u v h
  simp only [List.append_assoc] at h
  obtain rfl : a = a' := hf a ha a' ha' _ _ h
  obtain rfl : b = b' := hg b hb b' hb' u v (List.append_cancel_left h)
  rfl

/-- The same string in front of every encoding. -/
theorem PrefixFreeOn.const_append {s : Set α} {f : α → List σ} (hf : PrefixFreeOn s f)
    (front : List σ) : PrefixFreeOn s fun a => front ++ f a := by
  intro a ha b hb u v h
  simp only [List.append_assoc] at h
  exact hf a ha b hb u v (List.append_cancel_left h)

/-- The same string behind every encoding. -/
theorem PrefixFreeOn.append_const {s : Set α} {f : α → List σ} (hf : PrefixFreeOn s f)
    (back : List σ) : PrefixFreeOn s fun a => f a ++ back := by
  intro a ha b hb u v h
  simp only [List.append_assoc] at h
  exact hf a ha b hb _ _ h

/-- **A sequence of encodings can be cut up in one way only.** -/
theorem PrefixFreeOn.flatMap_injective {s : Set α} {f : α → List σ} (hf : PrefixFreeOn s f)
    (hne : ∀ a ∈ s, f a ≠ []) {xs ys : List α} (hxs : ∀ a ∈ xs, a ∈ s) (hys : ∀ a ∈ ys, a ∈ s)
    (h : xs.flatMap f = ys.flatMap f) : xs = ys := by
  induction xs generalizing ys with
  | nil =>
    cases ys with
    | nil => rfl
    | cons b ys =>
      rw [List.flatMap_nil, List.flatMap_cons] at h
      exact absurd (List.append_eq_nil_iff.1 h.symm).1 (hne b (hys b List.mem_cons_self))
  | cons a xs ih =>
    cases ys with
    | nil =>
      rw [List.flatMap_nil, List.flatMap_cons] at h
      exact absurd (List.append_eq_nil_iff.1 h).1 (hne a (hxs a List.mem_cons_self))
    | cons b ys =>
      rw [List.flatMap_cons, List.flatMap_cons] at h
      obtain rfl : a = b := hf a (hxs a List.mem_cons_self) b (hys b List.mem_cons_self) _ _ h
      have hrest := List.append_cancel_left h
      rw [ih (fun c hc => hxs c (List.mem_cons_of_mem a hc))
        (fun c hc => hys c (List.mem_cons_of_mem a hc)) hrest]

/-- Two families of strings whose fronts of one length differ never meet. -/
theorem not_prefix_of_front_ne {n : ℕ} {l m : List σ} (hl : n ≤ l.length)
    (hfront : l.take n ≠ m.take n) : ¬ l <+: m := by
  rintro ⟨u, rfl⟩
  exact hfront (by rw [List.take_append_of_le_length hl])

end PrefixCodes
