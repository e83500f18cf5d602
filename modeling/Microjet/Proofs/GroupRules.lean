import Microjet.Proofs.LogFields

/-!
# The group rules of the text handler

`slog` names an attribute by the groups that were open when it was added; the text handler gives
all attributes the last prefix. They agree as long as no group is opened after something that
prints was added, and an empty name comes before all others (`Tidy`). Where something is printed
under a group without a name, JSON has an object for it (`NoneUnderEmpty`).
-/

namespace Microjet.Logx

open Secretx

/-- Nothing that was added prints. -/
def Silent (attrs : List Attr) (chain : List Derivation) : Prop :=
  attrsPrint (added chain ++ attrs) = false

/-- No group is opened once something prints, and none without a name once one is open. -/
def Tidy (opened printed : Bool) : List Derivation → Prop
  | [] => True
  | .withAttrs attrs :: chain => Tidy opened (printed || attrsPrint attrs) chain
  | .withGroup name :: chain =>
    if name = [] then opened = false ∧ Tidy opened printed chain
    else printed = false ∧ Tidy true printed chain

/-- Nothing that prints is added after a group without a name. -/
def NoneUnderEmpty (attrs : List Attr) : List Derivation → Prop
  | [] => True
  | .withAttrs _ :: chain => NoneUnderEmpty attrs chain
  | .withGroup name :: chain =>
    if name = [] then Silent attrs chain else NoneUnderEmpty attrs chain

/-! ### Fields under a prefix -/

/-- The fields with a prefix to their names. -/
def under (pre : GoString) (fields : List (GoString × LogValue)) : List (GoString × LogValue) :=
  fields.map fun field => (pre ++ field.1, field.2)

section Under

variable {pre pre' : GoString} {fields : List (GoString × LogValue)}

theorem under_under : under pre (under pre' fields) = under (pre ++ pre') fields := by
  simp [under]

theorem under_append (fields fields' : List (GoString × LogValue)) :
    under pre (fields ++ fields') = under pre fields ++ under pre fields' :=
  List.map_append

theorem under_eq_iff : under pre fields = under pre' fields ↔ fields = [] ∨ pre = pre' := by
  constructor
  · intro h
    cases fields with
    | nil => exact .inl rfl
    | cons field fields =>
      exact .inr (List.append_cancel_right (Prod.mk.inj (List.cons.inj h).1).1)
  · rintro (rfl | rfl)
    · rfl
    · rfl

end Under

/-- What stands before the keys in a group. -/
def prefixOf (grp : GoString) : GoString := if grp = [] then [] else grp ++ bytes "."

theorem prefixOf_of_ne_nil {grp : GoString} (h : grp ≠ []) : prefixOf grp = grp ++ bytes "." :=
  if_neg h

theorem qualify_eq (grp key : GoString) : qualify grp key = prefixOf grp ++ key := by
  rw [qualify, prefixOf]
  split
  · rfl
  · rfl

theorem prefixOf_qualify {grp name : GoString} (h : grp ≠ [] ∨ name ≠ []) :
    prefixOf (qualify grp name) = prefixOf grp ++ (name ++ bytes ".") := by
  rw [qualify_eq, prefixOf_of_ne_nil, List.append_assoc]
  intro heq
  obtain ⟨hgrp, hname⟩ := List.append_eq_nil_iff.mp heq
  rcases h with h | h
  · rw [prefixOf_of_ne_nil h] at hgrp
    exact List.append_ne_nil_of_right_ne_nil grp (List.cons_ne_nil _ _) hgrp
  · exact h hname

mutual

theorem attrFields_under (grp key : GoString) : ∀ v : LogValue,
    attrFields grp key v = under (prefixOf grp) (attrFields [] key v)
  | .group attrs => by
      rw [attrFields, attrFields]
      split
      · exact attrsFields_under grp attrs
      · next hkey =>
          rw [attrsFields_under (qualify grp key), attrsFields_under (qualify [] key), under_under,
            prefixOf_qualify (.inr hkey), prefixOf_qualify (.inr hkey)]
          rfl
  | .nil => by
      rw [attrFields, attrFields]
      split
      · rfl
      · rw [qualify_eq]
        rfl
  | .string _ | .time _ | .duration _ | .any _ => by
      rw [attrFields, attrFields, qualify_eq]
      · rfl
      all_goals nofun

theorem attrsFields_under (grp : GoString) : ∀ attrs : List Attr,
    attrsFields grp attrs = under (prefixOf grp) (attrsFields [] attrs)
  | [] => rfl
  | (key, v) :: attrs => by
      rw [attrsFields, attrsFields, under_append, attrFields_under grp key v,
        attrsFields_under grp attrs]

end

mutual

theorem attrFields_eq_nil (grp key : GoString) : ∀ v : LogValue,
    attrFields grp key v = [] ↔ attrPrints key v = false
  | .group attrs => attrsFields_eq_nil _ attrs
  | .nil => by
      rw [attrFields, attrPrints]
      cases key <;> simp
  | .string _ | .time _ | .duration _ | .any _ => iff_of_false nofun nofun

theorem attrsFields_eq_nil (grp : GoString) : ∀ attrs : List Attr,
    attrsFields grp attrs = [] ↔ attrsPrint attrs = false
  | [] => iff_of_true rfl rfl
  | (key, v) :: attrs => by
      rw [attrsFields, attrsPrint, List.append_eq_nil_iff, Bool.or_eq_false_iff,
        attrFields_eq_nil, attrsFields_eq_nil]

end

/-! ### The rules of `slog`, by prefixes -/

/-- The prefix of a path. -/
def prefixText (path : List GoString) : GoString := path.flatMap (· ++ bytes ".")

theorem prefixText_concat (path : List GoString) (name : GoString) :
    prefixText (path ++ [name]) = prefixText path ++ (name ++ bytes ".") := by
  rw [prefixText, List.flatMap_append]
  exact congrArg _ (List.append_nil _)

theorem join_concat (key : GoString) : ∀ path : List GoString,
    join (bytes ".") (path ++ [key]) = prefixText path ++ key
  | [] => rfl
  | [name] => by
      show name ++ bytes "." ++ key = (name ++ bytes "." ++ []) ++ key
      rw [List.append_nil]
  | name :: name' :: path => by
      have ih := join_concat key (name' :: path)
      rw [List.cons_append, List.cons_append, join, ← List.cons_append, ih]
      exact (List.append_assoc _ _ _).symm

mutual

theorem named_under (path : List GoString) : ∀ m : Member,
    m.named path = under (prefixText path) (m.named [])
  | .value key v => by
      rw [Member.named, Member.named, join_concat, join_concat]
      rfl
  | .object key members => by
      rw [Member.named, Member.named, membersNamed_under (path ++ [key]) members,
        membersNamed_under ([] ++ [key]) members, under_under, prefixText_concat,
        prefixText_concat]
      rfl

theorem membersNamed_under (path : List GoString) : ∀ members : List Member,
    membersNamed path members = under (prefixText path) (membersNamed [] members)
  | [] => rfl
  | m :: members => by
      rw [membersNamed, membersNamed, under_append, named_under path m,
        membersNamed_under path members]

end

theorem membersNamed_append (path : List GoString) (members members' : List Member) :
    membersNamed path (members ++ members') =
      membersNamed path members ++ membersNamed path members' := by
  induction members with
  | nil => rfl
  | cons m members ih =>
    rw [List.cons_append, membersNamed, membersNamed, ih, List.append_assoc]

theorem membersNamed_objectOf (path : List GoString) (key : GoString) (members : List Member) :
    membersNamed path (objectOf key members) = membersNamed (path ++ [key]) members := by
  cases members with
  | nil => rfl
  | cons m members => exact List.append_nil _

mutual

theorem named_attrMembers (key : GoString) : ∀ v : LogValue,
    membersNamed [] (attrMembers key v) = attrFields [] key v
  | .group attrs => by
      rw [attrMembers, attrFields]
      split
      · exact named_attrsMembers attrs
      · next hkey =>
          rw [membersNamed_objectOf, membersNamed_under, named_attrsMembers attrs,
            attrsFields_under (qualify [] key), prefixOf_qualify (.inr hkey), prefixText_concat]
          rfl
  | .nil => by
      rw [attrMembers, attrFields]
      split
      · rfl
      · rfl
  | .string _ | .time _ | .duration _ | .any _ => rfl

theorem named_attrsMembers : ∀ attrs : List Attr,
    membersNamed [] (attrsMembers attrs) = attrsFields [] attrs
  | [] => rfl
  | (key, v) :: attrs => by
      rw [attrsMembers, attrsFields, membersNamed_append, named_attrMembers key v,
        named_attrsMembers attrs]

end

/-- The attributes of a chain and a record, each with the prefix of the groups that are open. -/
def placed (attrs : List Attr) (pre : GoString) : List Derivation → List (GoString × List Attr)
  | [] => [(pre, attrs)]
  | .withAttrs as :: chain => (pre, as) :: placed attrs pre chain
  | .withGroup name :: chain => placed attrs (pre ++ (name ++ bytes ".")) chain

theorem named_slogMembers (attrs : List Attr) (chain : List Derivation) (path : List GoString) :
    membersNamed path (slogMembers attrs chain) =
      (placed attrs (prefixText path) chain).flatMap fun p => under p.1 (attrsFields [] p.2) := by
  induction chain generalizing path with
  | nil =>
    rw [slogMembers, membersNamed_under, named_attrsMembers, placed]
    exact (List.append_nil _).symm
  | cons d chain ih =>
    cases d with
    | withAttrs as =>
      rw [slogMembers, membersNamed_append, membersNamed_under, named_attrsMembers, ih, placed,
        List.flatMap_cons]
    | withGroup name =>
      rw [slogMembers, membersNamed_objectOf, ih, placed, prefixText_concat]

/-! ### The text handler, by its last prefix -/

theorem attrsFields_added (last : GoString) (attrs : List Attr) (chain : List Derivation)
    (pre : GoString) :
    attrsFields last (added chain ++ attrs) =
      (placed attrs pre chain).flatMap fun p => under (prefixOf last) (attrsFields [] p.2) := by
  induction chain generalizing pre with
  | nil =>
    rw [placed, List.flatMap_cons, List.flatMap_nil, List.append_nil, ← attrsFields_under]
    rfl
  | cons d chain ih =>
    cases d with
    | withAttrs as =>
      rw [added, List.append_assoc, attrsFields_append, ih pre, placed, List.flatMap_cons,
        attrsFields_under]
    | withGroup name => exact ih _

/-- The attributes have the last prefix, unless they do not print. -/
def Right (last : GoString) (ps : List (GoString × List Attr)) : Prop :=
  ∀ p ∈ ps, attrsPrint p.2 = false ∨ p.1 = last

theorem flatMap_under_eq_iff (last : GoString) (ps : List (GoString × List Attr)) :
    (ps.flatMap fun p => under last (attrsFields [] p.2)) =
      (ps.flatMap fun p => under p.1 (attrsFields [] p.2)) ↔ Right last ps := by
  induction ps with
  | nil => simp [Right]
  | cons p ps ih =>
    have hlength : (under last (attrsFields [] p.2)).length =
        (under p.1 (attrsFields [] p.2)).length := by
      rw [under, under, List.length_map, List.length_map]
    rw [List.flatMap_cons, List.flatMap_cons, List.append_eq_append_iff_of_size_eq_left hlength,
      ih, under_eq_iff, attrsFields_eq_nil, Right, Right, List.forall_mem_cons,
      eq_comm (a := last)]

/-- When the fields are those of the members of a chain with the same attributes. -/
theorem fields_eq_named {attrs : List Attr} {chain chain' : List Derivation}
    (h : added chain' = added chain) :
    (PlainTextHandler.deriveAll {} chain).fields attrs =
        membersNamed [] (slogMembers attrs chain') ↔
      Right (prefixOf (lastGroup [] chain)) (placed attrs [] chain') := by
  rw [fields_deriveAll, ← h, attrsFields_added _ attrs chain' [], named_slogMembers]
  exact flatMap_under_eq_iff _ _

theorem added_dropEmpty (chain : List Derivation) : added (dropEmpty chain) = added chain := by
  induction chain with
  | nil => rfl
  | cons d chain ih =>
    cases d with
    | withAttrs as => rw [dropEmpty, added, added, ih]
    | withGroup name =>
      rw [dropEmpty]
      split
      · exact ih
      · exact ih

theorem length_lt_prefixOf_qualify {grp name : GoString} (h : grp ≠ [] ∨ name ≠ []) :
    (prefixOf grp).length < (prefixOf (qualify grp name)).length := by
  rw [prefixOf_qualify h, List.length_append, List.length_append]
  show _ < _ + (_ + 1)
  omega

theorem length_le_lastGroup (chain : List Derivation) (grp : GoString) :
    (prefixOf grp).length ≤ (prefixOf (lastGroup grp chain)).length := by
  induction chain generalizing grp with
  | nil => exact Nat.le_refl _
  | cons d chain ih =>
    cases d with
    | withAttrs as => exact ih grp
    | withGroup name =>
      refine Nat.le_trans ?_ (ih (qualify grp name))
      by_cases h : grp = []
      · rw [h]
        exact Nat.zero_le _
      · exact (length_lt_prefixOf_qualify (.inl h)).le

theorem length_append_lt {s t : GoString} (h : s.length < t.length) (u : GoString) :
    (s ++ u).length < (t ++ u).length := by
  rw [List.length_append, List.length_append]
  exact Nat.add_lt_add_right h _

/-- Once the prefix that is printed is longer than the right one it stays so. -/
theorem length_placed_lt {attrs : List Attr} (chain : List Derivation) {pre grp : GoString}
    (h : pre.length < (prefixOf grp).length) :
    ∀ p ∈ placed attrs pre (dropEmpty chain), p.1.length <
      (prefixOf (lastGroup grp chain)).length := by
  induction chain generalizing pre grp with
  | nil =>
    intro p hp
    rw [List.mem_singleton.mp hp]
    exact h
  | cons d chain ih =>
    cases d with
    | withAttrs as =>
      intro p hp
      rcases List.mem_cons.mp hp with rfl | hp
      · exact Nat.lt_of_lt_of_le h (length_le_lastGroup chain grp)
      · exact ih h p hp
    | withGroup name =>
      have hgrp : grp ≠ [] := by
        rintro rfl
        exact Nat.not_lt_zero _ h
      rw [dropEmpty, lastGroup]
      split
      · exact ih (Nat.lt_trans h (length_lt_prefixOf_qualify (.inl hgrp)))
      · refine ih ?_
        rw [prefixOf_qualify (.inl hgrp)]
        exact length_append_lt h _

section Chain

variable {attrs : List Attr} {chain : List Derivation} {printed : Bool} {last pre : GoString}

variable {as : List Attr}

theorem silent_withAttrs : Silent attrs (.withAttrs as :: chain) ↔
    attrsPrint as = false ∧ Silent attrs chain := by
  rw [Silent, added, List.append_assoc, attrsPrint_append, Bool.or_eq_false_iff, Silent]

theorem silent_iff (pre : GoString) :
    (∀ p ∈ placed attrs pre chain, attrsPrint p.2 = false) ↔ Silent attrs chain := by
  induction chain generalizing pre with
  | nil => exact List.forall_mem_singleton
  | cons d chain ih =>
    cases d with
    | withAttrs as => rw [placed, List.forall_mem_cons, ih, silent_withAttrs]
    | withGroup name => exact ih _

theorem silent_dropEmpty : Silent attrs (dropEmpty chain) ↔ Silent attrs chain := by
  rw [Silent, Silent, added_dropEmpty]

theorem Right.of_silent (h : Silent attrs chain) : Right last (placed attrs pre chain) :=
  fun p hp => .inl ((silent_iff pre).mpr h p hp)

/-- The attributes of a chain are right, and so are those before if something printed. -/
def Agrees (attrs : List Attr) (last pre : GoString) (printed : Bool) (chain : List Derivation) :
    Prop :=
  (printed = true → pre = last) ∧ Right last (placed attrs pre chain)

theorem agrees_withAttrs :
    Agrees attrs last pre printed (.withAttrs as :: chain) ↔
      Agrees attrs last pre (printed || attrsPrint as) chain := by
  rw [Agrees, Agrees, placed, Right, List.forall_mem_cons, ← and_assoc]
  refine and_congr_left' ?_
  cases printed <;> cases attrsPrint as <;> simp

theorem imp_eq_iff (hpre : pre ≠ last) : (printed = true → pre = last) ↔ printed = false := by
  cases printed
  · exact ⟨fun _ => rfl, fun h hp => absurd (h.symm.trans hp) (by decide)⟩
  · exact ⟨fun h => absurd (h rfl) hpre, fun h => absurd h (by decide)⟩

theorem agrees_longer (hpre : pre ≠ last)
    (h : ∀ p ∈ placed attrs pre chain, p.1.length < last.length) :
    Agrees attrs last pre printed chain ↔ printed = false ∧ Silent attrs chain := by
  rw [Agrees, ← silent_iff pre]
  refine and_congr (imp_eq_iff hpre) (forall₂_congr fun p hp => ?_)
  refine or_iff_left fun heq => ?_
  have hlt := h p hp
  rw [heq] at hlt
  exact Nat.lt_irrefl _ hlt

theorem agrees_withGroup {name : GoString} (hpre : pre ≠ last) :
    Agrees attrs last pre printed (.withGroup name :: chain) ↔
      printed = false ∧ Agrees attrs last (pre ++ (name ++ bytes ".")) false chain := by
  rw [Agrees, Agrees, placed]
  refine and_congr (imp_eq_iff hpre) ⟨fun h => ⟨fun hf => ?_, h⟩, And.right⟩
  exact absurd hf Bool.false_ne_true

theorem prefixOf_ne_lastGroup (chain : List Derivation) {grp name : GoString}
    (h : grp ≠ [] ∨ name ≠ []) : prefixOf grp ≠ prefixOf (lastGroup (qualify grp name) chain) := by
  intro heq
  have hlt := length_lt_prefixOf_qualify h
  have hle := length_le_lastGroup chain (qualify grp name)
  rw [← heq] at hle
  omega

theorem agrees_iff (attrs : List Attr) (chain : List Derivation) (grp : GoString)
    (printed : Bool) :
    Agrees attrs (prefixOf (lastGroup grp chain)) (prefixOf grp) printed (dropEmpty chain) ↔
      printed = false ∧ Silent attrs chain ∨ Tidy (!grp.isEmpty) printed chain := by
  induction chain generalizing grp printed with
  | nil =>
    refine ⟨fun _ => .inr trivial, fun _ => ⟨fun _ => rfl, fun p hp => .inr ?_⟩⟩
    rw [List.mem_singleton.mp hp]
    rfl
  | cons d chain ih =>
    cases d with
    | withAttrs as =>
      rw [dropEmpty, agrees_withAttrs, lastGroup, ih, Tidy, silent_withAttrs,
        Bool.or_eq_false_iff, and_assoc]
    | withGroup name =>
      rw [dropEmpty, Tidy, lastGroup]
      by_cases hname : name = []
      · rw [if_pos hname, if_pos hname]
        subst hname
        by_cases hgrp : grp = []
        · subst hgrp
          refine (ih [] printed).trans (or_congr_right ?_)
          exact ⟨fun h => ⟨rfl, h⟩, And.right⟩
        · -- the empty name has added a dot
          have hne : prefixOf grp ≠ prefixOf (lastGroup (qualify grp []) chain) :=
            prefixOf_ne_lastGroup chain (.inl hgrp)
          refine (agrees_longer hne (length_placed_lt chain
            (length_lt_prefixOf_qualify (.inl hgrp)))).trans ?_
          rw [silent_dropEmpty]
          simp [hgrp, Silent, added]
      · have hopened : (!(qualify grp name).isEmpty) = true := by
          rw [Bool.not_eq_true', List.isEmpty_eq_false_iff, qualify_eq]
          exact List.append_ne_nil_of_right_ne_nil _ hname
        rw [if_neg hname, if_neg hname,
          agrees_withGroup (prefixOf_ne_lastGroup chain (.inr hname)),
          ← prefixOf_qualify (.inr hname), ih, hopened, ← and_or_left]
        refine and_congr_right fun hprinted => ?_
        rw [hprinted]
        exact or_congr_left ⟨And.right, fun h => ⟨rfl, h⟩⟩

theorem only_silent {pre' : GoString} (h : pre'.length < pre.length)
    (hclean : attrsPrint as = false ∨ pre' = last) :
    attrsPrint as = false ∨ pre = last ↔ attrsPrint as = false := by
  refine ⟨fun hor => ?_, .inl⟩
  rcases hclean with hsilent | rfl
  · exact hsilent
  · exact hor.resolve_right fun heq => Nat.lt_irrefl _ (heq ▸ h)

/-- With an object that has no name, only what does not print is right in both ways. -/
theorem right_longer {pre' : GoString} (h : pre'.length < pre.length)
    (hclean : Right last (placed attrs pre' (dropEmpty chain))) :
    Right last (placed attrs pre chain) ↔ Silent attrs chain := by
  induction chain generalizing pre pre' with
  | nil =>
    have hattrs := hclean _ List.mem_cons_self
    exact List.forall_mem_singleton.trans (only_silent h hattrs)
  | cons d chain ih =>
    cases d with
    | withAttrs as =>
      obtain ⟨hfirst, hrest⟩ := List.forall_mem_cons.mp hclean
      rw [placed, Right, List.forall_mem_cons, silent_withAttrs]
      exact and_congr (only_silent h hfirst) (ih h hrest)
    | withGroup name =>
      rw [dropEmpty] at hclean
      rw [placed]
      split at hclean
      · refine ih (Nat.lt_of_lt_of_le h ?_) hclean
        rw [List.length_append]
        exact Nat.le_add_right _ _
      · exact ih (length_append_lt h _) hclean

theorem right_iff_noneUnderEmpty
    (hclean : Right last (placed attrs pre (dropEmpty chain))) :
    Right last (placed attrs pre chain) ↔ NoneUnderEmpty attrs chain := by
  induction chain generalizing pre with
  | nil => exact iff_of_true hclean trivial
  | cons d chain ih =>
    cases d with
    | withAttrs as =>
      obtain ⟨hfirst, hrest⟩ := List.forall_mem_cons.mp hclean
      rw [placed, Right, List.forall_mem_cons, NoneUnderEmpty]
      exact (and_iff_right hfirst).trans (ih hrest)
    | withGroup name =>
      rw [dropEmpty] at hclean
      rw [placed, NoneUnderEmpty]
      split at hclean
      · next hname =>
          rw [if_pos hname]
          refine right_longer ?_ hclean
          rw [List.length_append, List.length_append]
          exact Nat.lt_add_of_pos_right (Nat.succ_pos _)
      · next hname =>
          rw [if_neg hname]
          exact ih hclean

theorem Silent.noneUnderEmpty (h : Silent attrs chain) : NoneUnderEmpty attrs chain := by
  have hclean : Right [] (placed attrs [] (dropEmpty chain)) :=
    .of_silent (silent_dropEmpty.mpr h)
  exact (right_iff_noneUnderEmpty hclean).mp (.of_silent h)

end Chain

/-- The fields have the names that `slog.JSONHandler` would give them, with the groups that have
no name and without them, exactly if nothing prints or the chain is tidy and nothing prints under
a group without a name. -/
theorem fields_eq_named_iff (chain : List Derivation) (attrs : List Attr) :
    let h := PlainTextHandler.deriveAll {} chain
    (∀ isPrint ρ head, h.handle isPrint ρ head attrs = head ++
        (h.fields attrs).flatMap (fieldText isPrint ρ (compareValues ρ)) ++ bytes "\n") ∧
      (h.fields attrs = membersNamed [] (slogMembers attrs chain) ∧
          h.fields attrs = membersNamed [] (slogMembers attrs (dropEmpty chain)) ↔
        Silent attrs chain ∨ Tidy false false chain ∧ NoneUnderEmpty attrs chain) := by
  refine ⟨fun isPrint ρ head => line_eq_fields isPrint ρ _ _ head attrs, ?_⟩
  rw [fields_eq_named rfl, fields_eq_named (added_dropEmpty chain), and_comm,
    and_congr_right right_iff_noneUnderEmpty]
  have hagrees := agrees_iff attrs chain [] false
  rw [Agrees] at hagrees
  have hclean : Right (prefixOf (lastGroup [] chain)) (placed attrs [] (dropEmpty chain)) ↔
      Silent attrs chain ∨ Tidy false false chain :=
    ⟨fun h => (hagrees.mp ⟨fun hf => absurd hf Bool.false_ne_true, h⟩).imp_left And.right,
      fun h => (hagrees.mpr (h.imp_left fun h => ⟨rfl, h⟩)).2⟩
  rw [hclean, or_and_right]
  exact or_congr_left ⟨And.left, fun h => ⟨h, h.noneUnderEmpty⟩⟩

/-- An attribute is printed in a group that was opened after it. -/
theorem earlier_attr_in_group :
    let chain := [Derivation.withAttrs [(bytes "a", .string (bytes "1"))],
      .withGroup (bytes "g")]
    let h := PlainTextHandler.deriveAll {} chain
    h.handle (fun _ => true) (fun _ => []) (bytes "msg") [] = bytes "msg g.a=1\n" ∧
      (h.fields []).map Prod.fst = [bytes "g.a"] ∧
      (membersNamed [] (slogMembers [] chain)).map Prod.fst = [bytes "a"] := by
  decide

end Microjet.Logx
