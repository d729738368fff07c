import NodeClock.Proofs.Literal
import NodeClock.Proofs.Packet

/-!
# Addresses and their texts

* `Ipv6.Written`: the texts in which groups are written: with a zero run left out, in full, or as
  a mapped address.
* `Ipv6.Written.spelled`: such a text spells its groups.
* `Ipv6.render_written`: an address is written in one of these ways.
* `Ipv6.render_spelled`: **its text spells its groups.**
-/

namespace NodeClock.Net.Ipv6

variable {gs : List UInt16} {g h : UInt16} {s : List Char}

/-- The digits of a group are in lower case already. -/
theorem group_renderGroup (g : UInt16) : Group (renderGroup g) g := by
  have hg := g.toNat_lt
  have hlower : ∀ d < 16, (Nat.digitChar d).toLower = Nat.digitChar d := by decide
  refine ⟨(Nat.length_toDigits_le_iff (by decide) (by decide)).2 (by omega), 0, ?_⟩
  refine (List.map_congr_left fun c hc => ?_).trans (List.map_id _)
  obtain ⟨d, hd, rfl⟩ := mem_renderGroup hc
  exact hlower d hd

theorem forall₂_renderGroup (gs : List UInt16) : List.Forall₂ Group (gs.map renderGroup) gs := by
  rw [List.forall₂_map_left_iff, List.forall₂_same]
  exact fun g _ => group_renderGroup g

theorem tail_renderGroup (gs : List UInt16) : Tail (gs.map renderGroup) gs := by
  induction gs with
  | nil => exact .nil
  | cons g gs ih => exact .cons (group_renderGroup g) ih

/-- How groups are written: as a mapped address, with a run of zero groups left out, or in full. -/
inductive Written : List UInt16 → List Char → Prop where
  | mapped (g h : UInt16) :
      Written [0, 0, 0, 0, 0, 0xFFFF, g, h] ("::ffff:".toList ++ (embedded g h).render.toList)
  | shortened (front : List UInt16) (n : Nat) (back : List UInt16) : 0 < n →
      Written (front ++ List.replicate n 0 ++ back)
        (renderGroups front ++ ':' :: ':' :: renderGroups back)
  | full (gs : List UInt16) : Written gs (renderGroups gs)

/-- An address at the end stands for the two groups that it was made of. -/
theorem groups_embedded (g h : UInt16) : (embedded g h).groups = [g, h] := by
  simp only [Ipv4.groups, embedded, Coap.Packet.messageId_bytes]

/-- **What is written spells the groups.** -/
theorem Written.spelled (hw : Written gs s) : Spelled s gs := by
  cases hw with
  | mapped g h =>
    have hback := Tail.cons (group_renderGroup 0xFFFF) (.address (embedded g h))
    rw [groups_embedded] at hback
    have hspelled := Spelled.shortened 5 (by decide) .nil hback
    rw [List.intercalate_cons_cons, List.intercalate_singleton] at hspelled
    exact hspelled
  | shortened front n back hn =>
    exact .shortened n hn (forall₂_renderGroup front) (tail_renderGroup back)
  | full => exact .full (tail_renderGroup gs)

/-- The run that is found is a run of zeros. -/
theorem longestZeros_le (gs : List UInt16) :
    (longestZeros gs).2 ≤ zerosAt gs (longestZeros gs).1 := by
  unfold longestZeros
  apply List.foldlRecOn (motive := fun best : Nat × Nat => best.2 ≤ zerosAt gs best.1)
  · exact Nat.zero_le _
  · intro best hbest i _
    split
    · exact Nat.le_refl _
    · exact hbest

/-- Groups around a run of zeros. -/
theorem eq_around_zeros {start n : Nat} (h : n ≤ zerosAt gs start) :
    gs = gs.take start ++ List.replicate n 0 ++ gs.drop (start + n) := by
  have hzeros : (gs.drop start).take n = List.replicate n 0 := by
    have hrun : (gs.drop start).take n =
        ((gs.drop start).takeWhile (· == 0)).take n := by
      have hsplit := List.takeWhile_append_dropWhile (p := (· == (0 : UInt16))) (l := gs.drop start)
      rw [← hsplit, List.take_append_of_le_length h, hsplit]
    rw [hrun, List.eq_replicate_iff]
    constructor
    · rw [List.length_take]
      exact Nat.min_eq_left h
    · intro g hg
      have hall := List.all_eq_true.1
        (List.all_takeWhile (p := (· == (0 : UInt16))) (l := gs.drop start))
      exact eq_of_beq (hall g (List.mem_of_mem_take hg))
  have hsplit := List.take_append_drop n (gs.drop start)
  rw [hzeros, List.drop_drop] at hsplit
  rw [List.append_assoc, hsplit, List.take_append_drop]

/-- **An address is written in one of these ways.** -/
theorem render_written (i : Ipv6) : Written i.groups i.render.toList := by
  unfold render
  split
  · next g h hgs =>
    rw [hgs, String.toList_append]
    exact .mapped g h
  · simp only [String.toList_ofList]
    split
    · next hlong =>
      have hw := Written.shortened (i.groups.take (longestZeros i.groups).1)
        (longestZeros i.groups).2
        (i.groups.drop ((longestZeros i.groups).1 + (longestZeros i.groups).2)) (by omega)
      rw [← eq_around_zeros (longestZeros_le i.groups)] at hw
      simpa using hw
    · exact .full i.groups

/-- **The text of an IPv6 address spells its groups.** -/
theorem render_spelled (i : Ipv6) : Spelled i.render.toList i.groups := i.render_written.spelled

end NodeClock.Net.Ipv6
