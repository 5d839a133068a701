import Airdrop.Hasher

/-!
# Collisions, and tags that keep leaves and nodes apart

No theorem about trees assumes that a hash function has no collisions. What a root commits to is stated as a
disjunction whose last member is `Algorithm.Collides`: two distinct strings of a given list have one digest. The list
holds what was hashed on the way, so a collision is one that the theorem's reader could exhibit.

* `Algorithm.eq_or_collides` : strings with one digest are equal, or they collide.
* `Hasher.Unambiguous` : no leaf of one of the given widths is hashed from the same string as an inner node.
* `Hasher.NodeAmong` : a hash that one of the listed strings gives for two digests.
  `Hasher.NodeAmong.collides` : under unambiguous tags it is no leaf hash, unless strings collide.
-/

namespace Airdrop

namespace Algorithm

/-- Two distinct strings of a list have one digest. -/
def Collides (a : Algorithm) (strings : List Bytes) : Prop :=
  ∃ x ∈ strings, ∃ y ∈ strings, x ≠ y ∧ a.digest x = a.digest y

instance (a : Algorithm) (strings : List Bytes) : Decidable (a.Collides strings) :=
  inferInstanceAs (Decidable (∃ x ∈ strings, ∃ y ∈ strings, x ≠ y ∧ a.digest x = a.digest y))

variable {a : Algorithm} {strings more : List Bytes}

theorem Collides.mono (h : a.Collides strings) (hs : strings ⊆ more) : a.Collides more := by
  obtain ⟨x, hx, y, hy, hne, hd⟩ := h
  exact ⟨x, hs hx, y, hs hy, hne, hd⟩

theorem Collides.swap (h : a.Collides (strings ++ more)) : a.Collides (more ++ strings) :=
  h.mono (List.append_subset.mpr ⟨List.subset_append_right _ _, List.subset_append_left _ _⟩)

theorem eq_or_collides {x y : Bytes} (hx : x ∈ strings) (hy : y ∈ strings) (hd : a.digest x = a.digest y) :
    x = y ∨ a.Collides strings := by
  by_cases hxy : x = y
  · exact Or.inl hxy
  · exact Or.inr ⟨x, hx, y, hy, hxy, hd⟩

end Algorithm

namespace Hasher

/-- Leaves of the given widths and inner nodes are hashed from different strings: the strings differ in length, or
neither tag begins the other. -/
def Unambiguous (h : Hasher) (widths : List Nat) : Prop :=
  ∀ w ∈ widths, h.leafTag.length + w ≠ h.nodeTag.length + 64 ∨ ¬ h.leafTag <+: h.nodeTag ∧ ¬ h.nodeTag <+: h.leafTag

instance (h : Hasher) (widths : List Nat) : Decidable (h.Unambiguous widths) :=
  inferInstanceAs (Decidable (∀ w ∈ widths,
    h.leafTag.length + w ≠ h.nodeTag.length + 64 ∨ ¬ h.leafTag <+: h.nodeTag ∧ ¬ h.nodeTag <+: h.leafTag))

variable {h : Hasher} {widths : List Nat} {strings : List Bytes} {encoded left right left' right' : Bytes}

theorem nodePreimage_inj (hr : right.length = right'.length)
    (heq : h.nodePreimage left right = h.nodePreimage left' right') : left = left' ∧ right = right' := by
  unfold nodePreimage at heq
  obtain ⟨htag, hright⟩ := List.append_inj' heq hr
  exact ⟨List.append_cancel_left htag, hright⟩

theorem leafPreimage_ne_nodePreimage (hu : h.Unambiguous widths) (he : encoded.length ∈ widths)
    (hl : left.length = 32) (hr : right.length = 32) : h.leafPreimage encoded ≠ h.nodePreimage left right := by
  intro heq
  unfold leafPreimage nodePreimage at heq
  rcases hu _ he with hlen | ⟨hleaf, hnode⟩
  · have := congrArg List.length heq
    simp only [List.length_append, hl, hr] at this
    omega
  · have hln : h.leafTag <+: h.nodeTag ++ left ++ right := heq ▸ List.prefix_append _ _
    have hnn : h.nodeTag <+: h.nodeTag ++ left ++ right := by
      rw [List.append_assoc]
      exact List.prefix_append _ _
    rcases List.prefix_or_prefix_of_prefix hln hnn with hp | hp
    · exact hleaf hp
    · exact hnode hp

/-- The hash of an inner node over two digests, which one of the given strings was hashed for. -/
def NodeAmong (h : Hasher) (strings : List Bytes) (hash : Bytes) : Prop :=
  ∃ left right : Bytes, left.length = 32 ∧ right.length = 32 ∧ h.nodePreimage left right ∈ strings ∧
    hash = h.node left right

theorem NodeAmong.mono {more : List Bytes} {hash : Bytes} (hn : h.NodeAmong strings hash) (hs : strings ⊆ more) :
    h.NodeAmong more hash := by
  obtain ⟨left, right, hl, hr, hmem, heq⟩ := hn
  exact ⟨left, right, hl, hr, hs hmem, heq⟩

/-- A leaf hash that is also the hash of an inner node exhibits a collision. -/
theorem NodeAmong.collides (hn : h.NodeAmong strings (h.leaf encoded)) (hu : h.Unambiguous widths)
    (he : encoded.length ∈ widths) (hs : h.leafPreimage encoded ∈ strings) : h.algorithm.Collides strings := by
  obtain ⟨left, right, hl, hr, hmem, heq⟩ := hn
  exact ⟨_, hs, _, hmem, leafPreimage_ne_nodePreimage hu he hl hr, heq⟩

/-- Encodings with one leaf hash are equal, or what is hashed for them collides. -/
theorem eq_or_collides_of_leaf_eq {encoded' : Bytes} (hs : h.leafPreimage encoded ∈ strings)
    (hs' : h.leafPreimage encoded' ∈ strings) (heq : h.leaf encoded = h.leaf encoded') :
    encoded = encoded' ∨ h.algorithm.Collides strings := by
  rcases Algorithm.eq_or_collides hs hs' heq with hp | hc
  · exact Or.inl (List.append_cancel_left hp)
  · exact Or.inr hc

end Hasher
end Airdrop
