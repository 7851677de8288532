import Mathlib.Data.Set.Card
import Trellis.Expr.Hash
import Trellis.Proofs.Outline

/-!
# Equality of expressions is that of normal forms

Literals are equal in kind and value, while the literal of an operator, where it has one, may be a truth
value in one tree and a number in the other. Both notions are equality of a normal form, in which zero has no
sign and, in an operator, a truth value is the number that it counts as. So equality is an equivalence on
trees without `nan`, which differs even from itself; and what the normal form tells respects it.

* `Expr.normal`: the normal form of a tree; `same_iff`: trees are equal exactly if their normal forms are;
* `hash_normal`, `outline_normal`: the hash of a tree is that of its normal form, and, unless a literal is a
  negative zero, so is the outline;
* `Expr.Context`: a tree with a hole in it;
* `Expr.classOf`: all trees that are equal to one; `Represents`: a list holds one tree of each class;
* `equality_proper`: **equality is an equivalence that hashes, sets, larger trees and outlines respect**.
-/

namespace Trellis

/-! ## Normal forms -/

/-- The number with the sign of zero left out. -/
def Number.normal : Number → Number
  | .nan => .nan
  | .signed negative m => .signed (negative && m != .zero) m

namespace Value

/-- The value of a literal with the sign of zero left out. -/
def normal : Value → Value
  | .number x => .number x.normal
  | v => v

/-- The value as the number that it counts as, if it counts as one. -/
def counted : Value → Value
  | .truth b => .number (numberOfTruth b)
  | v => v.normal

end Value

/-- The token with its literal as a number, if it counts as one. -/
def Token.normal (t : Token) : Token := { t with literal := t.literal.counted }

namespace Expr

/-- The normal form of a tree. -/
def normal : Expr → Expr
  | .binary a t b => .binary a.normal t.normal b.normal
  | .grouping e => .grouping e.normal
  | .literal v => .literal v.normal
  | .unary t e => .unary t.normal e.normal

/-- No literal in the tree, nor any in its operators, is `nan`. -/
def NanFree : Expr → Prop
  | .binary a t b => a.NanFree ∧ t.literal ≠ .number .nan ∧ b.NanFree
  | .grouping e => e.NanFree
  | .literal v => v ≠ .number .nan
  | .unary t e => t.literal ≠ .number .nan ∧ e.NanFree

end Expr

variable {x y : Number} {v w : Value} {t u : Token} {a b e e' : Expr}

theorem Number.agrees_iff : x.agrees y = true ↔ x ≠ .nan ∧ x.normal = y.normal := by
  cases x with
  | nan => simp [agrees]
  | signed n m =>
    cases y with
    | nan => simp [agrees, normal]
    | signed n' m' =>
      simp only [agrees, normal, Bool.and_eq_true, Bool.or_eq_true, beq_iff_eq, ne_eq, reduceCtorEq,
        not_false_eq_true, true_and, signed.injEq]
      constructor
      · rintro ⟨rfl, rfl | rfl⟩ <;> simp
      · rintro ⟨hn, rfl⟩
        by_cases hm : m = .zero
        · exact ⟨rfl, .inr hm⟩
        · have hne : (m != .zero) = true := bne_iff_ne.2 hm
          exact ⟨rfl, .inl (by simpa [hne] using hn)⟩

namespace Value

theorem same_iff : v.same w = true ↔ v ≠ .number .nan ∧ v.normal = w.normal := by
  cases v with
  | number x =>
    cases w with
    | number y => simpa [same, normal] using Number.agrees_iff
    | _ => simp [same, normal]
  | _ => cases w <;> simp [same, normal]

theorem normal_numberOfTruth (b : Bool) : (numberOfTruth b).normal = numberOfTruth b := by
  cases b <;> rfl

theorem numberOfTruth_ne_nan (b : Bool) : numberOfTruth b ≠ .nan := by
  cases b <;> simp [numberOfTruth, Number.one, Number.zero]

theorem numberOfTruth_injective {b c : Bool} (h : numberOfTruth b = numberOfTruth c) : b = c := by
  revert b c
  decide

theorem agrees_iff : v.agrees w = true ↔ v ≠ .number .nan ∧ v.counted = w.counted := by
  cases v with
  | truth b =>
    cases w with
    | truth c =>
      have hcount : numberOfTruth b = numberOfTruth c ↔ b = c :=
        ⟨numberOfTruth_injective, congrArg numberOfTruth⟩
      simp [agrees, same, counted, hcount]
    | number y =>
      simp [agrees, counted, normal, Number.agrees_iff, normal_numberOfTruth, numberOfTruth_ne_nan]
    | _ => simp [agrees, same, counted, normal]
  | number x =>
    cases w with
    | truth c => simp [agrees, counted, normal, Number.agrees_iff, normal_numberOfTruth]
    | number y => simpa [agrees, same, counted, normal] using Number.agrees_iff
    | _ => simp [agrees, same, counted, normal]
  | _ => cases w <;> simp [agrees, same, counted, normal]

theorem normal_eq_nan : v.normal = .number .nan ↔ v = .number .nan := by
  cases v with
  | number x => cases x <;> simp [normal, Number.normal]
  | _ => simp [normal]

theorem counted_eq_nan : v.counted = .number .nan ↔ v = .number .nan := by
  cases v with
  | truth b => simp [counted, numberOfTruth_ne_nan]
  | number x => exact normal_eq_nan (v := .number x)
  | _ => simp [counted, normal]

theorem normal_eq_self (h : v ≠ .number (.signed true .zero)) : v.normal = v := by
  cases v with
  | number x =>
    cases x with
    | nan => rfl
    | signed negative m =>
      have hsign : (negative && m != .zero) = negative := by
        cases negative with
        | false => rfl
        | true => simpa using h
      rw [normal, Number.normal, hsign]
  | _ => rfl

theorem normal_ne_negativeZero (v : Value) : v.normal ≠ .number (.signed true .zero) := by
  cases v with
  | number x => cases x <;> simp [normal, Number.normal]
  | _ => simp [normal]

theorem normal_normal (v : Value) : v.normal.normal = v.normal :=
  normal_eq_self v.normal_ne_negativeZero

theorem counted_counted (v : Value) : v.counted.counted = v.counted := by
  cases v with
  | truth b => simp [counted, normal, normal_numberOfTruth]
  | number x => exact normal_normal (.number x)
  | _ => rfl

theorem type_normal (v : Value) : v.normal.type = v.type := by
  cases v <;> rfl

end Value

theorem agrees_of_same (h : v.same w = true) : v.agrees w = true := by
  cases v <;> cases w <;> first | exact h | cases h

theorem Token.agrees_iff :
    t.agrees u = true ↔ t.literal ≠ .number .nan ∧ t.normal = u.normal := by
  simp only [agrees, normal, Bool.and_eq_true, beq_iff_eq, Value.agrees_iff, Token.mk.injEq]
  tauto

/-- Trees are equal exactly if one is free of `nan` and their normal forms are equal. -/
theorem same_iff : e.same e' = true ↔ e.NanFree ∧ e.normal = e'.normal := by
  -- trees with different nodes on top are not equal, and neither are their normal forms
  induction e generalizing e' with
  | binary a t b iha ihb =>
    cases e' with
    | binary a' t' b' =>
      simp only [Expr.same, Expr.NanFree, Expr.normal, Bool.and_eq_true, iha, ihb, Token.agrees_iff,
        Expr.binary.injEq]
      tauto
    | _ => simp [Expr.same, Expr.normal]
  | grouping e ih =>
    cases e' with
    | grouping e' => simpa [Expr.same, Expr.NanFree, Expr.normal] using ih
    | _ => simp [Expr.same, Expr.normal]
  | literal v =>
    cases e' with
    | literal v' => simpa [Expr.same, Expr.NanFree, Expr.normal] using Value.same_iff
    | _ => simp [Expr.same, Expr.normal]
  | unary t e ih =>
    cases e' with
    | unary t' e' =>
      simp only [Expr.same, Expr.NanFree, Expr.normal, Bool.and_eq_true, ih, Token.agrees_iff,
        Expr.unary.injEq]
      tauto
    | _ => simp [Expr.same, Expr.normal]

/-- A normal form is free of `nan` exactly if the tree is. -/
theorem nanFree_normal (e : Expr) : e.normal.NanFree ↔ e.NanFree := by
  induction e with
  | binary a t b iha ihb =>
    simp [Expr.NanFree, Expr.normal, Token.normal, Value.counted_eq_nan, iha, ihb]
  | grouping e ih => exact ih
  | literal v => exact not_congr Value.normal_eq_nan
  | unary t e ih => simp [Expr.NanFree, Expr.normal, Token.normal, Value.counted_eq_nan, ih]

theorem same_refl (h : e.NanFree) : e.same e = true :=
  same_iff.2 ⟨h, rfl⟩

theorem same_symm (h : a.same b = true) : b.same a = true := by
  obtain ⟨ha, hab⟩ := same_iff.1 h
  have hb : b.NanFree := by rwa [← nanFree_normal b, ← hab, nanFree_normal a]
  exact same_iff.2 ⟨hb, hab.symm⟩

theorem same_comm (a b : Expr) : a.same b = b.same a :=
  Bool.eq_iff_iff.2 ⟨same_symm, same_symm⟩

theorem same_trans {c : Expr} (hab : a.same b = true) (hbc : b.same c = true) : a.same c = true := by
  obtain ⟨ha, hab⟩ := same_iff.1 hab
  exact same_iff.2 ⟨ha, hab.trans (same_iff.1 hbc).2⟩

/-! ## Parts of trees -/

/-- A tree with a hole in place of a part. -/
inductive Expr.Context where
  | hole
  | left (c : Context) (operator : Token) (right : Expr)
  | right (left : Expr) (operator : Token) (c : Context)
  | grouping (c : Context)
  | operand (operator : Token) (c : Context)

/-- The tree with an expression in the hole. -/
def Expr.Context.fill (e : Expr) : Context → Expr
  | .hole => e
  | .left c t b => .binary (c.fill e) t b
  | .right a t c => .binary a t (c.fill e)
  | .grouping c => .grouping (c.fill e)
  | .operand t c => .unary t (c.fill e)

theorem normal_fill (c : Expr.Context) (hab : a.normal = b.normal) :
    (c.fill a).normal = (c.fill b).normal := by
  induction c with
  | hole => exact hab
  | left c t e ih => simp only [Expr.Context.fill, Expr.normal, ih]
  | right e t c ih => simp only [Expr.Context.fill, Expr.normal, ih]
  | grouping c ih => simp only [Expr.Context.fill, Expr.normal, ih]
  | operand t c ih => simp only [Expr.Context.fill, Expr.normal, ih]

/-- Equal parts make equal trees. -/
theorem same_fill {c : Expr.Context} (hc : (c.fill a).NanFree) (hab : a.same b = true) :
    (c.fill a).same (c.fill b) = true :=
  same_iff.2 ⟨hc, normal_fill c (same_iff.1 hab).2⟩

/-! ## Hashes -/

variable {h : Hashing}

theorem Token.hash_normal (ht : t.literal ≠ .number .nan) : t.normal.hash h = t.hash h := by
  have hagrees : t.literal.agrees t.literal.counted = true :=
    Value.agrees_iff.2 ⟨ht, (Value.counted_counted _).symm⟩
  rw [hash, hash, normal, h.value_eq _ _ hagrees]

/-- The hash of a tree is that of its normal form. -/
theorem hash_normal (he : e.NanFree) : e.normal.hash h = e.hash h := by
  induction e with
  | binary a t b iha ihb =>
    obtain ⟨ha, ht, hb⟩ := he
    rw [Expr.normal, Expr.hash, Expr.hash, iha ha, Token.hash_normal ht, ihb hb]
  | grouping e ih => rw [Expr.normal, Expr.hash, Expr.hash, ih he]
  | literal v =>
    have hsame : v.same v.normal = true := Value.same_iff.2 ⟨he, (Value.normal_normal v).symm⟩
    rw [Expr.normal, Expr.hash, Expr.hash, Value.type_normal,
      h.value_eq _ _ (agrees_of_same hsame)]
  | unary t e ih =>
    obtain ⟨ht, he⟩ := he
    rw [Expr.normal, Expr.hash, Expr.hash, Token.hash_normal ht, ih he]

theorem hash_of_same (hab : a.same b = true) : a.hash h = b.hash h := by
  have ha := (same_iff.1 hab).1
  have hb := (same_iff.1 (same_symm hab)).1
  rw [← hash_normal ha, ← hash_normal hb, (same_iff.1 hab).2]

/-! ## Sets -/

/-- Comparing hashes first leaves no equal tree out. -/
theorem insert_eq (h : Hashing) (seen : List Expr) (e : Expr) :
    h.insert seen e = if seen.any (·.same e) then seen else e :: seen := by
  have hcompare : ∀ x : Expr, (x.hash h == e.hash h && x.same e) = x.same e := by
    intro x
    cases hx : x.same e with
    | false => simp
    | true => simp [hash_of_same hx]
  simp only [Hashing.insert, hcompare]

/-- The number of different trees in a list is the size of the set of them. -/
theorem countDistinct_eq (h : Hashing) (es : List Expr) :
    Expr.countDistinct (es.map some) = (h.collect es).length := by
  have hany : ∀ (seen : List Expr) (e : Expr),
      (seen.map some).any (Expr.sameOption (some e)) = seen.any (·.same e) := by
    intro seen e
    rw [List.any_map]
    exact congrArg seen.any (funext (same_comm e))
  have hrun : (es.map some).foldl
      (fun seen e => if seen.any (Expr.sameOption e) then seen else e :: seen) ([].map some) =
        (h.collect es).map some := by
    rw [List.foldl_map]
    refine List.foldl_hom (List.map some) ?_
    intro seen e
    rw [hany, insert_eq]
    split <;> rfl
  exact (congrArg List.length hrun).trans (List.length_map some)

/-- All trees that are equal to one. -/
def Expr.classOf (e : Expr) : Set Expr := {x | x.same e = true}

theorem classOf_eq_iff (ha : a.NanFree) : a.classOf = b.classOf ↔ a.same b = true := by
  constructor
  · intro hclass
    have hmem : a ∈ a.classOf := same_refl ha
    rwa [hclass] at hmem
  · intro hab
    ext x
    exact ⟨fun hx => same_trans hx hab, fun hx => same_trans hx (same_symm hab)⟩

/-- A list holds one tree of each class that trees of another list are of. -/
structure Represents (seen es : List Expr) : Prop where
  among : ∀ x ∈ seen, x ∈ es
  apart : seen.Pairwise fun x y => ¬ x.same y = true
  covers : ∀ e ∈ es, ∃ x ∈ seen, x.same e = true

variable {seen es : List Expr}

theorem represents_insert (hr : Represents seen es) (he : e.NanFree) :
    Represents (h.insert seen e) (es ++ [e]) := by
  rw [insert_eq]
  by_cases hany : seen.any (·.same e) = true
  · obtain ⟨x, hx, hxe⟩ := List.any_eq_true.1 hany
    rw [if_pos hany]
    refine ⟨fun y hy => List.mem_append_left _ (hr.among y hy), hr.apart, ?_⟩
    rw [List.forall_mem_append, List.forall_mem_singleton]
    exact ⟨hr.covers, x, hx, hxe⟩
  · have hnone : ∀ x ∈ seen, ¬ e.same x = true := by
      intro x hx hex
      exact hany (List.any_eq_true.2 ⟨x, hx, same_symm hex⟩)
    rw [if_neg hany]
    refine ⟨?_, List.pairwise_cons.2 ⟨hnone, hr.apart⟩, ?_⟩
    · rw [List.forall_mem_cons]
      exact ⟨List.mem_append_right _ (List.mem_singleton_self e),
        fun y hy => List.mem_append_left _ (hr.among y hy)⟩
    · rw [List.forall_mem_append, List.forall_mem_singleton]
      refine ⟨?_, e, List.mem_cons_self, same_refl he⟩
      intro d hd
      obtain ⟨x, hx, hxd⟩ := hr.covers d hd
      exact ⟨x, List.mem_cons_of_mem e hx, hxd⟩

theorem represents_foldl {done : List Expr} (hes : ∀ e ∈ es, e.NanFree) (hr : Represents seen done) :
    Represents (es.foldl h.insert seen) (done ++ es) := by
  induction es generalizing done seen with
  | nil => rwa [List.append_nil]
  | cons e es ih =>
    obtain ⟨he, hes⟩ := List.forall_mem_cons.1 hes
    have hstep := ih hes (represents_insert (h := h) hr he)
    rwa [List.append_assoc] at hstep

/-- The set of the trees in a list holds one tree of each class. -/
theorem represents_collect (hes : ∀ e ∈ es, e.NanFree) : Represents (h.collect es) es := by
  have hnil : Represents [] [] := ⟨by simp, .nil, by simp⟩
  exact represents_foldl hes hnil

/-- Where there is one tree of each class, there are as many trees as classes. -/
theorem length_of_represents (hr : Represents seen es) (hes : ∀ e ∈ es, e.NanFree) :
    seen.length = (Expr.classOf '' {e | e ∈ es}).ncard := by
  have hfree : ∀ x ∈ seen, x.NanFree := fun x hx => hes x (hr.among x hx)
  have hclasses : (seen.map Expr.classOf).Nodup := by
    refine List.pairwise_map.2 (hr.apart.imp_of_mem ?_)
    intro x y hx _ hxy hclass
    exact hxy ((classOf_eq_iff (hfree x hx)).1 hclass)
  have himage : Expr.classOf '' {e | e ∈ es} = {c | c ∈ seen.map Expr.classOf} := by
    ext c
    rw [Set.mem_ofPred_eq, List.mem_map]
    constructor
    · rintro ⟨e, he, rfl⟩
      obtain ⟨x, hx, hxe⟩ := hr.covers e he
      exact ⟨x, hx, (classOf_eq_iff (hfree x hx)).2 hxe⟩
    · rintro ⟨x, hx, rfl⟩
      exact ⟨x, hr.among x hx, rfl⟩
  classical
  rw [himage, ← List.coe_toFinset, Set.ncard_coe_finset, List.toFinset_card_of_nodup hclasses,
    List.length_map]

/-! ## Outlines -/

/-- No literal is a negative zero; what stands in operators does not count. -/
def Expr.NoNegativeZero : Expr → Prop
  | .binary a _ b => a.NoNegativeZero ∧ b.NoNegativeZero
  | .grouping e => e.NoNegativeZero
  | .literal v => v ≠ .number (.signed true .zero)
  | .unary _ e => e.NoNegativeZero

/-- Unless a literal is a negative zero, the outline of a tree is that of its normal form. -/
theorem outlineLines_normal (he : e.NoNegativeZero) : e.normal.outlineLines = e.outlineLines := by
  induction e with
  | binary a t b iha ihb =>
    obtain ⟨ha, hb⟩ := he
    rw [Expr.normal, Expr.outlineLines, Expr.outlineLines, iha ha, ihb hb]
    rfl
  | grouping e ih =>
    rw [Expr.normal, Expr.outlineLines, Expr.outlineLines, ih he]
    rfl
  | literal v => rw [Expr.normal, Value.normal_eq_self he]
  | unary t e ih =>
    rw [Expr.normal, Expr.outlineLines, Expr.outlineLines, ih he]
    rfl

theorem outline_of_same (hab : a.same b = true) (ha : a.NoNegativeZero) (hb : b.NoNegativeZero) :
    a.outline = b.outline := by
  rw [Expr.outline, Expr.outline, ← outlineLines_normal ha, ← outlineLines_normal hb,
    (same_iff.1 hab).2]

/-! ## What respects equality -/

/-- Equality is an equivalence on the trees without `nan`. Equal trees have one hash, so that a set holds
as many trees as there are classes, in whatever order they are put into it. An equal part can take the place
of a part, and equal trees without a negative zero among their literals have one outline. -/
theorem equality_proper (h : Hashing) :
    (Equivalence fun a b : {e : Expr // e.NanFree} => a.1.same b.1 = true) ∧
    (∀ a b : Expr, a.same b = true → a.hash h = b.hash h) ∧
    (∀ es : List Expr, (∀ e ∈ es, e.NanFree) →
      (h.collect es).length = (Expr.classOf '' {e | e ∈ es}).ncard ∧
      (h.collect es).length = Expr.countDistinct (es.map some) ∧
      ∀ es' : List Expr, es'.Perm es → (h.collect es').length = (h.collect es).length) ∧
    (∀ (c : Expr.Context) (a b : Expr), (c.fill a).NanFree → a.same b = true →
      (c.fill a).same (c.fill b) = true) ∧
    ∀ a b : Expr, a.same b = true → a.NoNegativeZero → b.NoNegativeZero → a.outline = b.outline := by
  have hsize (es : List Expr) (hes : ∀ e ∈ es, e.NanFree) :
      (h.collect es).length = (Expr.classOf '' {e | e ∈ es}).ncard :=
    length_of_represents (represents_collect hes) hes
  refine ⟨⟨fun a => same_refl a.2, same_symm, same_trans⟩, fun _ _ => hash_of_same, ?_,
    fun _ _ _ => same_fill, fun _ _ => outline_of_same⟩
  intro es hes
  refine ⟨hsize es hes, (countDistinct_eq h es).symm, ?_⟩
  intro es' hperm
  have hmem : {e | e ∈ es'} = {e | e ∈ es} := Set.ext fun _ => hperm.mem_iff
  rw [hsize es hes, hsize es' fun e he => hes e (hperm.mem_iff.1 he), hmem]

/-- A sum with a number on the left and a literal at its operator, which only a tree built by hand has. -/
def sumOf (x : Number) (v : Value) : Expr :=
  .binary (.literal (.number x)) ⟨.plus, "+", v, 1⟩ (.literal (.truth true))

/-- At an operator `true` is equal to one, as zero is to the negative zero in a literal; but literals of
different types are not equal. So there are three classes, and only the sign of zero shows in outlines. -/
theorem three_classes :
    let a := sumOf .zero (.truth true)
    let b := sumOf .zero (.number .one)
    let c := sumOf (.signed true .zero) (.number .one)
    let t := Expr.literal (.truth true)
    let n := Expr.literal (.number .one)
    a.same b = true ∧ b.same c = true ∧ a.same c = true ∧
    a.hash .residues = b.hash .residues ∧ b.hash .residues = c.hash .residues ∧
    (Hashing.collect .residues [a, b, c, t, n]).length = 3 ∧
    (Hashing.collect .residues [t, c, n, b, a]).length = 3 ∧
    (Expr.grouping a).same (.grouping c) = true ∧
    a.outline = b.outline ∧ a.outline ≠ c.outline := by
  intro a b c t n
  have hab : a.same b = true := by decide
  have hbc : b.same c = true := by decide
  obtain ⟨hequiv, hhash, hsets, hfill, houtline⟩ := equality_proper .residues
  have hfree : ∀ e ∈ [a, b, c, t, n], e.NanFree := by
    simp [a, b, c, t, n, sumOf, Expr.NanFree, Number.zero, Number.one]
  have ha := hfree a (by simp)
  have hb := hfree b (by simp)
  have hc := hfree c (by simp)
  have hac : a.same c = true := hequiv.trans (x := ⟨a, ha⟩) (y := ⟨b, hb⟩) (z := ⟨c, hc⟩) hab hbc
  obtain ⟨-, hcount, hperm⟩ := hsets _ hfree
  have hthree : (Hashing.collect .residues [a, b, c, t, n]).length = 3 := by
    rw [hcount]
    decide
  refine ⟨hab, hbc, hac, hhash a b hab, hhash b c hbc, hthree, ?_, hfill (.grouping .hole) a c ha hac,
    houtline a b hab ?_ ?_, ?_⟩
  · rw [hperm _ (by decide), hthree]
  · simp [a, sumOf, Expr.NoNegativeZero, Number.zero]
  · simp [b, sumOf, Expr.NoNegativeZero, Number.zero]
  · decide

end Trellis
