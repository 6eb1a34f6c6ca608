import SolidOps.Proofs.Call.Stages

/-!
# Sizes and flags, axis by axis

The settings of a resize are read from two values of any kind.  A vector is laid over defaults, one
for each of the three axes, and may be too short, too long or hold items that are no numbers; of
what is no vector, only `true` for the flags means anything.

* `Axes.get` reads an axis by its number.  `Axes.get_overlay` says what an overlay has there: the
  item of the list, if there is one, or else what was there before.  With it, no length of a list
  has to be looked at again.
* `Value.itemOn?` is the item that a value has for an axis.  `Resolution.SizeOn` and
  `Resolution.FlagOn` say what two values put on an axis, and `Settings.Filled` says so of all axes.
* `Value.SameOnAxes` relates vectors that differ beyond the third item only.

That such values give the same settings follows from what is on the axes alone
(`Settings.Filled.eq`); how the settings are read is not looked at again.

**`resize_fills_axes`** is the law for whole calls, in any state and for any expressions.
-/

namespace SolidOps

/-! ## Reading an axis -/

namespace Axes

variable {α : Type}

/-- What is on an axis, by the number of the axis. -/
def get (a : Axes α) : Fin 3 → α
  | 0 => a.x
  | 1 => a.y
  | 2 => a.z

lemma ext_get {a b : Axes α} (h : ∀ i, a.get i = b.get i) : a = b := by
  obtain ⟨x, y, z⟩ := a
  obtain ⟨x', y', z'⟩ := b
  rw [mk.injEq]
  exact ⟨h 0, h 1, h 2⟩

@[simp] lemma get_all (a : α) (i : Fin 3) : (all a).get i = a := by
  fin_cases i <;> rfl

/-- **An overlay replaces an axis by the item of its number**, and leaves it when there is none. -/
lemma get_overlay (a : Axes α) (items : List α) (i : Fin 3) :
    (a.overlay items).get i = (items[(i : ℕ)]?).getD (a.get i) := by
  fin_cases i <;> rfl

end Axes

namespace Value

/-- Every axis has its item among the first `axisCount`. -/
lemma getElem?_take_axisCount (items : List Value) (i : Fin 3) :
    (items.take Defaults.axisCount)[(i : ℕ)]? = items[(i : ℕ)]? :=
  List.getElem?_take_of_lt i.isLt

/-- The item that a value has for an axis: there is one in a vector that is long enough. -/
def itemOn? (v : Value) (i : Fin 3) : Option Value := v.items?.bind fun items => items[(i : ℕ)]?

@[simp] lemma itemOn?_vector (items : List Value) (i : Fin 3) :
    (vector items).itemOn? i = items[(i : ℕ)]? := rfl

lemma itemOn?_of_not_vector {v : Value} (h : v.isVector = false) (i : Fin 3) :
    v.itemOn? i = none := by
  cases v with
  | vector items => cases h
  | _ => rfl

/-- The same value, or vectors that differ in items for which there is no axis: in what these items
are, or in how many there are. -/
inductive SameOnAxes : Value → Value → Prop
  | same (v : Value) : SameOnAxes v v
  | beyond {xs ys : List Value} (h : xs.take Defaults.axisCount = ys.take Defaults.axisCount) :
      SameOnAxes (.vector xs) (.vector ys)

lemma SameOnAxes.itemOn?_eq {v w : Value} (h : v.SameOnAxes w) (i : Fin 3) :
    v.itemOn? i = w.itemOn? i := by
  cases h with
  | same => rfl
  | @beyond xs ys h =>
      rw [itemOn?_vector, itemOn?_vector, ← getElem?_take_axisCount xs,
        ← getElem?_take_axisCount ys, h]

end Value

/-! ## What a value puts on an axis -/

namespace Resolution

variable {N N' A A' : Value} {i : Fin 3}

/-- The size that a value puts on an axis: the number that it has there, and zero when it has no
number there. -/
inductive SizeOn (N : Value) (i : Fin 3) : Binary64 → Prop
  | number {x : Binary64} (h : N.itemOn? i = some (.number x)) : SizeOn N i x
  | nothing (h : ∀ x, N.itemOn? i ≠ some (.number x)) : SizeOn N i Binary64.zero

/-- The flag that a value puts on an axis: it is set when the value has an item there that is true,
and when the value is `true`. -/
def FlagOn (A : Value) (i : Fin 3) (flag : Bool) : Prop :=
  flag = true ↔ (∃ v, A.itemOn? i = some v ∧ v.toBool = true) ∨ A = .boolean true

lemma SizeOn.eq {x x' : Binary64} (h : SizeOn N i x) (h' : SizeOn N' i x')
    (hitem : N.itemOn? i = N'.itemOn? i) : x = x' := by
  cases h with
  | number hx =>
      cases h' with
      | number hx' =>
          rw [hitem, hx'] at hx
          cases hx
          rfl
      | nothing hx' => exact absurd (hitem ▸ hx) (hx' _)
  | nothing hx =>
      cases h' with
      | number hx' => exact absurd (hitem ▸ hx') (hx _)
      | nothing hx' => rfl

lemma FlagOn.eq {flag flag' : Bool} (h : FlagOn A i flag) (h' : FlagOn A' i flag')
    (hA : A.SameOnAxes A') : flag = flag' := by
  have htrue : A = .boolean true ↔ A' = .boolean true := by
    cases hA with
    | same => rfl
    | beyond => exact iff_of_false nofun nofun
  rw [FlagOn, hA.itemOn?_eq i, htrue] at h
  exact Bool.eq_iff_iff.mpr (h.trans h'.symm)

lemma get_newSize (N : Value) (i : Fin 3) :
    (newSize N).get i = ((N.itemOn? i).map Value.toNumber).getD Binary64.zero := by
  cases N with
  | vector items =>
      rw [newSize, Axes.get_overlay, List.getElem?_map, Value.getElem?_take_axisCount,
        Defaults.newSize, Axes.get_all, Value.itemOn?_vector]
  | _ => exact Axes.get_all _ i

/-- **The sizes that are read are those that the value puts on the axes.** -/
lemma sizeOn_newSize (N : Value) (i : Fin 3) : SizeOn N i ((newSize N).get i) := by
  rw [get_newSize]
  cases hitem : N.itemOn? i with
  | none => exact .nothing fun x => by simp [hitem]
  | some v =>
      cases v with
      | number x => exact .number hitem
      | _ => exact .nothing fun x => by simp [hitem]

/-- **The flags that are read are those that the value puts on the axes.** -/
lemma flagOn_auto (A : Value) (i : Fin 3) : FlagOn A i ((auto A).get i) := by
  rw [FlagOn]
  cases A with
  | vector items =>
      rw [auto, Axes.get_overlay, List.getElem?_map, Value.getElem?_take_axisCount, Defaults.auto,
        Axes.get_all, Value.itemOn?_vector]
      cases items[(i : ℕ)]? <;> simp
  | boolean b => cases b <;> simp [auto, Defaults.auto, Value.itemOn?, Value.items?]
  | _ => simp [auto, Defaults.auto, Value.itemOn?, Value.items?]

end Resolution

/-! ## All axes -/

namespace Settings

open Resolution

/-- The settings of a resize that has on every axis what a value for the sizes and one for the flags
put there. -/
inductive Filled (N A : Value) : Settings → Prop
  | resize {size : Axes Binary64} {auto : Axes Bool} (sizes : ∀ i, SizeOn N i (size.get i))
      (flags : ∀ i, FlagOn A i (auto.get i)) : Filled N A (.resize size auto)

lemma filled_ofBindings (b : Bindings) :
    (ofBindings .resize b).1.Filled (b.get "newsize") (b.get "auto") :=
  .resize (sizeOn_newSize _) (flagOn_auto _)

/-- **Only the items for the axes matter.** -/
lemma Filled.eq {N N' A A' : Value} {p p' : Settings} (h : p.Filled N A) (h' : p'.Filled N' A')
    (hN : ∀ i, N.itemOn? i = N'.itemOn? i) (hA : A.SameOnAxes A') : p = p' := by
  obtain ⟨sizes, flags⟩ := h
  obtain ⟨sizes', flags'⟩ := h'
  rw [resize.injEq]
  exact ⟨Axes.ext_get fun i => (sizes i).eq (sizes' i) (hN i),
    Axes.ext_get fun i => (flags i).eq (flags' i) hA⟩

end Settings

/-! ## Whole calls -/

section Calls

variable {σ ε : Type} [Sink σ] [Evaluator σ ε]

/-- What a call of `resize` gives when it succeeds: its arguments were bound, the children were
asked for in the state that this left, and the settings have on every axis what the bindings put
there. -/
lemma perform_resize {args : List (Argument ε)} {children : Run σ (List Node)} {s t : σ}
    {o : Operation} (h : (instantiate ⟨"resize", args, children⟩).perform s = (.ok o, t)) :
    ∃ b u, (bind "resize" Operator.resize.signature args).perform s = (.ok b, u) ∧
      children.perform u = (.ok o.children, t) ∧
      o.settings.Filled (b.get "newsize") (b.get "auto") := by
  have hcall := instantiate_of_keyword .resize args children
  rw [Operator.keyword] at hcall
  rw [hcall] at h
  obtain ⟨b, u, hbind, hchildren, hsettings⟩ := Operator.perform_evaluate_eq_ok_iff.mp h
  exact ⟨b, u, hbind, hchildren, hsettings ▸ Settings.filled_ofBindings b⟩

end Calls

/-- **Sizes and flags of a resize, axis by axis.**

Let a call of `resize` succeed, in any state and whatever its expressions are.  Its arguments were
bound, and then its children were had: in between nothing was reported.  On every axis its settings
have the number that the value of `newsize` has there, or zero if it has no number there, and the
flag is the truth of the item that the value of `auto` has there, or set for the value `true` and
for no other value that has no item there.

So the settings are the same for another call where the items beyond the third are different, more
or fewer in either value, and where `newsize` is no vector instead of one that is empty. -/
theorem resize_fills_axes {σ ε : Type} [Sink σ] [Evaluator σ ε] (args : List (Argument ε))
    (children : Run σ (List Node)) (s t : σ) (o : Operation)
    (h : (instantiate ⟨"resize", args, children⟩).perform s = (.ok o, t)) :
    ∃ b u, (bind "resize" Operator.resize.signature args).perform s = (.ok b, u) ∧
      children.perform u = (.ok o.children, t) ∧
      o.settings.Filled (b.get "newsize") (b.get "auto") ∧
      ∀ (args' : List (Argument ε)) (children' : Run σ (List Node)) (s' t' u' : σ)
        (o' : Operation) (b' : Bindings),
        (instantiate ⟨"resize", args', children'⟩).perform s' = (.ok o', t') →
        (bind "resize" Operator.resize.signature args').perform s' = (.ok b', u') →
        ((b.get "newsize").SameOnAxes (b'.get "newsize") ∨
          b.get "newsize" = .vector [] ∧ (b'.get "newsize").isVector = false) →
        (b.get "auto").SameOnAxes (b'.get "auto") →
        o'.settings = o.settings := by
  obtain ⟨b, u, hbind, hchildren, hfilled⟩ := perform_resize h
  refine ⟨b, u, hbind, hchildren, hfilled, ?_⟩
  intro args' children' s' t' u' o' b' h' hbind' hN hA
  obtain ⟨b'', u'', hbind'', -, hfilled'⟩ := perform_resize h'
  rw [hbind'] at hbind''
  cases hbind''
  refine (hfilled.eq hfilled' (fun i => ?_) hA).symm
  rcases hN with hN | ⟨hN, hN'⟩
  · exact hN.itemOn?_eq i
  · rw [hN, Value.itemOn?_of_not_vector hN']
    rfl

/-- Sizes of which one is a string and one has no axis, and `true` for the flags.  The same settings
come of the sizes without the one that has no axis. -/
theorem resize_fills_axes_of_four_sizes :
    Settings.Filled (.vector [.string "5", .number ⟨0x8000000000000000⟩,
        .number ⟨0x4000000000000000⟩, .number ⟨0x3FF0000000000000⟩]) (.boolean true)
        (.resize ⟨⟨0⟩, ⟨0x8000000000000000⟩, ⟨0x4000000000000000⟩⟩ (.all true)) ∧
      ((instantiate ⟨"resize", ([⟨none, .literal (.vector [.string "5",
            .number ⟨0x8000000000000000⟩, .number ⟨0x4000000000000000⟩])⟩,
          ⟨none, .literal (.boolean true)⟩] : List (Argument Expression)), pure []⟩).perform
        (Context.ofScope Scope.empty)).1.map Operation.settings =
      .ok (.resize ⟨⟨0⟩, ⟨0x8000000000000000⟩, ⟨0x4000000000000000⟩⟩ (.all true)) := by
  obtain ⟨b, u, hbind, -, hfilled, hsame⟩ := resize_fills_axes
    ([⟨some "auto", .literal (.boolean true)⟩,
      ⟨none, .literal (.vector [.string "5", .number ⟨0x8000000000000000⟩,
        .number ⟨0x4000000000000000⟩, .number ⟨0x3FF0000000000000⟩])⟩] : List (Argument Expression))
    (pure []) (Context.ofScope Scope.empty) _
    ⟨.resize ⟨⟨0⟩, ⟨0x8000000000000000⟩, ⟨0x4000000000000000⟩⟩ (.all true), []⟩ rfl
  cases hbind
  have hother := hsame
    ([⟨none, .literal (.vector [.string "5", .number ⟨0x8000000000000000⟩,
        .number ⟨0x4000000000000000⟩])⟩, ⟨none, .literal (.boolean true)⟩] :
      List (Argument Expression))
    (pure []) (Context.ofScope Scope.empty) _ _ _ _ rfl rfl (.inl (.beyond rfl)) (.same _)
  exact ⟨hfilled, congrArg Except.ok hother⟩

end SolidOps
