import SolidOps.KeywordTable
import SolidOps.Proofs.Run

/-!
# Registering keywords

A keyword table is filled by registering single names and by registering the keywords of all
operators at once.  Registering all at once is not atomic: it stops at the first keyword that is
taken, and those before it stay.  So a table may be left half filled, and further registrations
start from there.

* `KeywordTable.insert` is what a registration that succeeds does; it is made where names stand in
  order (`Ordered`), finds the new name and disturbs no other (`lookup?_insert`).
* `perform_register_of_taken`, `perform_register_of_free`: the two ends of a single registration.
* `perform_registerEach_of_free`, `perform_registerEach_of_taken`: the two ends of registering
  several operators, whose additions `KeywordTable.Adds` describes by lookups.
* `exists_perform_registerAll_eq_ok_iff`: these are the two ends of registering all operators, since
  of the keywords that are taken one is the first (`exists_first_taken`).

Whatever single registrations keep is also kept when several operators are registered, whether that
fails or not (`registerEach_keeps`), and so by every run.

**`KeywordTable.registration_law`** collects what is known of the table after any run.
-/

namespace SolidOps

lemma Operator.keyword_injective : Function.Injective Operator.keyword := by
  intro a b h
  cases a <;> cases b <;> simp_all [Operator.keyword]

lemma Operator.mem_all (op : Operator) : op ∈ Operator.all := by
  cases op <;> decide

lemma Operator.nodup_all : Operator.all.Nodup := by
  decide

namespace KeywordTable

/-! ## Names in order -/

lemma nameBytes_injective : Function.Injective nameBytes := by
  intro a b h
  have hdata : a.toUTF8.data = b.toUTF8.data := Array.toList_inj.mp h
  exact String.toByteArray_inj.mp (ByteArray.ext hdata)

lemma precedes_iff {a b : String} : precedes a b = true ↔ nameBytes a < nameBytes b := by
  rw [precedes, decide_eq_true_iff]

/-- Of two names one comes first. -/
lemma lt_of_not_precedes {a b : String} (h : ¬precedes a b = true) (hne : a ≠ b) :
    nameBytes b < nameBytes a := by
  rw [precedes_iff] at h
  by_contra hnot
  exact hne (nameBytes_injective (List.le_antisymm (List.not_lt.mp hnot) (List.not_lt.mp h)))

/-- The names of a table stand in order. -/
def Ordered (t : KeywordTable) : Prop := t.names.Pairwise fun a b => nameBytes a < nameBytes b

lemma Ordered.nodup {t : KeywordTable} (h : t.Ordered) : t.names.Nodup := by
  refine List.Pairwise.imp (fun {a b} hlt heq => ?_) h
  rw [heq] at hlt
  exact List.lt_irrefl _ hlt

lemma mem_names_iff {t : KeywordTable} {name : String} :
    name ∈ t.names ↔ ∃ op, t.lookup? name = some op := by
  rw [← Option.isSome_iff_exists, lookup?, List.lookup_isSome_iff, names, List.mem_map]
  simp only [beq_iff_eq, @eq_comm _ name]

lemma not_mem_names {t : KeywordTable} {name : String} (h : t.lookup? name = none) :
    name ∉ t.names := by
  intro hmem
  obtain ⟨op, hop⟩ := mem_names_iff.mp hmem
  rw [h] at hop
  cases hop

/-! ## Inserting an entry -/

lemma insertEntry_perm (name : String) (op : Operator) (entries : List (String × Operator)) :
    (insertEntry name op entries).Perm ((name, op) :: entries) := by
  induction entries with
  | nil => exact .refl _
  | cons entry entries ih =>
      rw [insertEntry]
      split_ifs
      · exact .refl _
      · exact (ih.cons entry).trans (.swap _ _ _)

lemma pairwise_insertEntry {name : String} {op : Operator} {entries : List (String × Operator)}
    (hordered : (entries.map Prod.fst).Pairwise fun a b => nameBytes a < nameBytes b)
    (hnew : name ∉ entries.map Prod.fst) :
    ((insertEntry name op entries).map Prod.fst).Pairwise fun a b => nameBytes a < nameBytes b := by
  induction entries with
  | nil => exact List.pairwise_singleton _ _
  | cons entry entries ih =>
      rw [List.map_cons, List.pairwise_cons] at hordered
      rw [List.map_cons, List.mem_cons, not_or] at hnew
      rw [insertEntry]
      split_ifs with h
      · rw [precedes_iff] at h
        rw [List.map_cons, List.map_cons, List.pairwise_cons, List.pairwise_cons]
        refine ⟨fun other hother => ?_, hordered⟩
        rcases List.mem_cons.mp hother with rfl | hother
        · exact h
        · exact List.lt_trans h (hordered.1 other hother)
      · rw [List.map_cons, List.pairwise_cons]
        refine ⟨fun other hother => ?_, ih hordered.2 hnew.2⟩
        have hnames := ((insertEntry_perm name op entries).map Prod.fst).mem_iff.mp hother
        rcases List.mem_cons.mp hnames with rfl | hother
        · exact lt_of_not_precedes h hnew.1
        · exact hordered.1 other hother

/-- The table with one more entry. -/
def insert (t : KeywordTable) (name : String) (op : Operator) : KeywordTable :=
  ⟨insertEntry name op t.entries⟩

lemma Ordered.insert {t : KeywordTable} (h : t.Ordered) {name : String}
    (hfree : t.lookup? name = none) (op : Operator) : (t.insert name op).Ordered :=
  pairwise_insertEntry h (not_mem_names hfree)

lemma lookup_cons_ite (name : String) (op : Operator) (entries : List (String × Operator))
    (other : String) : ((name, op) :: entries).lookup other =
      if other = name then some op else entries.lookup other := by
  rw [List.lookup_cons]
  split_ifs with h
  · rw [h, beq_self_eq_true]
  · rw [beq_false_of_ne h]

/-- **A new entry is found under its name and is in no other's way.** -/
lemma lookup?_insert {t : KeywordTable} {name : String} (hfree : t.lookup? name = none)
    (op : Operator) (other : String) :
    (t.insert name op).lookup? other = if other = name then some op else t.lookup? other := by
  obtain ⟨entries⟩ := t
  simp only [lookup?, insert] at hfree ⊢
  induction entries with
  | nil => rw [insertEntry, lookup_cons_ite]
  | cons entry entries ih =>
      obtain ⟨first, kept⟩ := entry
      have hne : name ≠ first := by
        rintro rfl
        rw [lookup_cons_ite, if_pos rfl] at hfree
        cases hfree
      rw [lookup_cons_ite, if_neg hne] at hfree
      rw [insertEntry]
      split_ifs with hprecedes hother hother
      · rw [lookup_cons_ite, if_pos hother]
      · rw [lookup_cons_ite, if_neg hother]
      · rw [lookup_cons_ite, ih hfree, if_pos hother, if_neg (hother ▸ hne)]
      · rw [lookup_cons_ite, lookup_cons_ite, ih hfree, if_neg hother]

/-! ## Registering one name -/

lemma perform_register_of_taken {t : KeywordTable} {name : String} {old : Operator}
    (h : t.lookup? name = some old) (op : Operator) :
    (register name op).perform t = (.error (.keywordTaken name), t) := by
  rw [register, Run.perform_bind_of_ok (Run.perform_get t), h, Run.perform_throw]

lemma perform_register_of_free {t : KeywordTable} {name : String} (h : t.lookup? name = none)
    (op : Operator) : (register name op).perform t = (.ok (), t.insert name op) := by
  rw [register, Run.perform_bind_of_ok (Run.perform_get t), h]
  rfl

/-- A registration leaves the table or inserts into it. -/
lemma register_cases (name : String) (op : Operator) (t : KeywordTable) :
    ((register name op).perform t).2 = t ∨
      t.lookup? name = none ∧ ((register name op).perform t).2 = t.insert name op := by
  cases h : t.lookup? name with
  | some old => exact .inl (by rw [perform_register_of_taken h])
  | none => exact .inr ⟨rfl, by rw [perform_register_of_free h]⟩

/-- A registration fails just when the name is there. -/
lemma perform_register_eq_error_iff (name : String) (op : Operator) (t : KeywordTable) :
    (register name op).perform t = (.error (.keywordTaken name), t) ↔ t.lookup? name ≠ none := by
  cases h : t.lookup? name with
  | some old => exact iff_of_true (perform_register_of_taken h op) (by simp)
  | none =>
      refine iff_of_false (fun herror => ?_) (by simp)
      rw [perform_register_of_free h] at herror
      cases herror

/-! ## Registering several operators -/

/-- The table that comes from another one by adding operators under their keywords. -/
structure Adds (t : KeywordTable) (ops : List Operator) (t' : KeywordTable) : Prop where
  added : ∀ op ∈ ops, t'.lookup? op.keyword = some op
  others : ∀ name, (∀ op ∈ ops, name ≠ op.keyword) → t'.lookup? name = t.lookup? name

/-- What single registrations keep, registering several operators keeps. -/
lemma registerEach_keeps {P : KeywordTable → Prop}
    (hkeeps : ∀ name op t, P t → P ((register name op).perform t).2) (ops : List Operator)
    {t : KeywordTable} (ht : P t) : P ((registerEach ops).perform t).2 := by
  induction ops generalizing t with
  | nil => exact ht
  | cons op ops ih =>
      have hfirst := hkeeps op.keyword op t ht
      rcases h : (register op.keyword op).perform t with ⟨_ | _, t'⟩
      · rw [registerEach, Run.perform_bind_of_error h]
        rwa [h] at hfirst
      · rw [registerEach, Run.perform_bind_of_ok h]
        rw [h] at hfirst
        exact ih hfirst

lemma registerEach_append (xs ys : List Operator) :
    registerEach (xs ++ ys) = registerEach xs >>= fun _ => registerEach ys := by
  induction xs with
  | nil => rw [List.nil_append, registerEach, pure_bind]
  | cons x xs ih => rw [List.cons_append, registerEach, registerEach, ih, bind_assoc]

/-- Operators whose keywords are free are all added. -/
lemma perform_registerEach_of_free {ops : List Operator} (hdistinct : ops.Nodup)
    {t : KeywordTable} (hfree : ∀ op ∈ ops, t.lookup? op.keyword = none) :
    ∃ t', (registerEach ops).perform t = (.ok (), t') ∧ t.Adds ops t' := by
  induction ops generalizing t with
  | nil => exact ⟨t, rfl, by simp, fun _ _ => rfl⟩
  | cons op ops ih =>
      rw [List.nodup_cons] at hdistinct
      rw [List.forall_mem_cons] at hfree
      have hlookup := lookup?_insert hfree.1 op
      have hkeyword : ∀ o ∈ ops, o.keyword ≠ op.keyword := by
        intro o ho heq
        exact hdistinct.1 (Operator.keyword_injective heq ▸ ho)
      obtain ⟨t', hperform, hadds⟩ := ih (t := t.insert op.keyword op) hdistinct.2 (by
        intro o ho
        rw [hlookup, if_neg (hkeyword o ho), hfree.2 o ho])
      refine ⟨t', ?_, ?_, fun name hname => ?_⟩
      · rw [registerEach, Run.perform_bind_of_ok (perform_register_of_free hfree.1 op), hperform]
      · refine List.forall_mem_cons.mpr ⟨?_, hadds.added⟩
        rw [hadds.others _ fun o ho => (hkeyword o ho).symm, hlookup, if_pos rfl]
      · rw [List.forall_mem_cons] at hname
        rw [hadds.others name hname.2, hlookup, if_neg hname.1]

/-- The first keyword that is taken ends the registration, with those before it added. -/
lemma perform_registerEach_of_taken {before later : List Operator} {op : Operator}
    (hdistinct : (before ++ op :: later).Nodup) {t : KeywordTable}
    (hfree : ∀ o ∈ before, t.lookup? o.keyword = none) {old : Operator}
    (htaken : t.lookup? op.keyword = some old) :
    ∃ t', (registerEach (before ++ op :: later)).perform t =
      (.error (.keywordTaken op.keyword), t') ∧ t.Adds before t' := by
  rw [List.nodup_append] at hdistinct
  obtain ⟨t', hperform, hadds⟩ := perform_registerEach_of_free hdistinct.1 hfree
  refine ⟨t', ?_, hadds⟩
  have hkeyword : ∀ o ∈ before, op.keyword ≠ o.keyword := by
    intro o ho heq
    exact hdistinct.2.2 o ho op List.mem_cons_self (Operator.keyword_injective heq).symm
  have hstill : t'.lookup? op.keyword = some old := by rw [hadds.others _ hkeyword, htaken]
  rw [registerEach_append, Run.perform_bind_of_ok hperform, registerEach,
    Run.perform_bind_of_error (perform_register_of_taken hstill op)]

/-! ## Registering all operators -/

lemma perform_registerAll_of_free {t : KeywordTable}
    (hfree : ∀ op : Operator, t.lookup? op.keyword = none) :
    ∃ t', registerAll.perform t = (.ok (), t') ∧ t.Adds Operator.all t' :=
  perform_registerEach_of_free Operator.nodup_all fun op _ => hfree op

lemma perform_registerAll_of_taken {t : KeywordTable} {before later : List Operator}
    {op : Operator} (hsplit : Operator.all = before ++ op :: later)
    (hfree : ∀ o ∈ before, t.lookup? o.keyword = none) (htaken : t.lookup? op.keyword ≠ none) :
    ∃ t', registerAll.perform t = (.error (.keywordTaken op.keyword), t') ∧ t.Adds before t' := by
  obtain ⟨old, hold⟩ := Option.ne_none_iff_exists'.mp htaken
  rw [registerAll, hsplit]
  exact perform_registerEach_of_taken (hsplit ▸ Operator.nodup_all) hfree hold

/-- If some keyword is taken, one of them is the first. -/
lemma exists_first_taken {t : KeywordTable} {op : Operator} (h : t.lookup? op.keyword ≠ none) :
    ∃ before first later, Operator.all = before ++ first :: later ∧
      (∀ o ∈ before, t.lookup? o.keyword = none) ∧ t.lookup? first.keyword ≠ none := by
  have hsome : ∃ o ∈ Operator.all, (t.lookup? o.keyword).isSome :=
    ⟨op, op.mem_all, Option.isSome_iff_ne_none.mpr h⟩
  obtain ⟨first, hfind⟩ := Option.isSome_iff_exists.mp (List.find?_isSome.mpr hsome)
  obtain ⟨hfirst, before, later, hsplit, hbefore⟩ := List.find?_eq_some_iff_append.mp hfind
  exact ⟨before, first, later, hsplit, by simpa using hbefore, Option.isSome_iff_ne_none.mp hfirst⟩

/-- Registering all operators succeeds just when no keyword is taken. -/
lemma exists_perform_registerAll_eq_ok_iff (t : KeywordTable) :
    (∃ t', registerAll.perform t = (.ok (), t')) ↔
      ∀ op : Operator, t.lookup? op.keyword = none := by
  constructor
  · rintro ⟨t', hok⟩ op
    by_contra htaken
    obtain ⟨before, first, later, hsplit, hfree, hfirst⟩ := exists_first_taken htaken
    obtain ⟨t'', herror, -⟩ := perform_registerAll_of_taken hsplit hfree hfirst
    rw [hok] at herror
    cases herror
  · intro hfree
    obtain ⟨t', hok, -⟩ := perform_registerAll_of_free hfree
    exact ⟨t', hok⟩

/-! ## Runs -/

/-- A registration of one name or of the keywords of all operators. -/
inductive Registration
  | one (name : String) (op : Operator)
  | all

/-- Makes a registration. -/
def Registration.action : Registration → Run KeywordTable Unit
  | one name op => register name op
  | all => registerAll

/-- The table after several registrations in order, whether they succeed or fail. -/
def after (t : KeywordTable) (registrations : List Registration) : KeywordTable :=
  registrations.foldl (fun t r => (r.action.perform t).2) t

lemma after_append (t : KeywordTable) (xs ys : List Registration) :
    t.after (xs ++ ys) = (t.after xs).after ys := List.foldl_append

/-- What single registrations keep, every run keeps. -/
lemma after_keeps {P : KeywordTable → Prop}
    (hkeeps : ∀ name op t, P t → P ((register name op).perform t).2)
    (registrations : List Registration) {t : KeywordTable} (ht : P t) :
    P (t.after registrations) := by
  induction registrations generalizing t with
  | nil => exact ht
  | cons r registrations ih =>
      refine ih (t := (r.action.perform t).2) ?_
      cases r with
      | one name op => exact hkeeps name op t ht
      | all => exact registerEach_keeps hkeeps Operator.all ht

lemma ordered_after (registrations : List Registration) : (empty.after registrations).Ordered := by
  refine after_keeps (fun name op t ht => ?_) registrations List.Pairwise.nil
  rcases register_cases name op t with h | ⟨hfree, h⟩
  · rwa [h]
  · rw [h]
    exact ht.insert hfree op

/-- A name keeps its operator. -/
lemma lookup?_after {t : KeywordTable} {name : String} {op : Operator}
    (h : t.lookup? name = some op) (registrations : List Registration) :
    (t.after registrations).lookup? name = some op := by
  refine after_keeps (P := fun t => t.lookup? name = some op) (fun other op' t ht => ?_)
    registrations h
  rcases register_cases other op' t with hsame | ⟨hfree, hinsert⟩
  · rwa [hsame]
  · have hne : name ≠ other := by
      rintro rfl
      rw [ht] at hfree
      cases hfree
    rw [hinsert, lookup?_insert hfree, if_neg hne, ht]

/-- The names are as many as lookup finds. -/
lemma Ordered.size_eq_ncard {t : KeywordTable} (h : t.Ordered) :
    t.size = {name | t.lookup? name ≠ none}.ncard := by
  have hset : {name | t.lookup? name ≠ none} = (t.names.toFinset : Set String) := by
    ext name
    rw [Set.mem_ofPred_eq, List.coe_toFinset, Set.mem_ofPred_eq, mem_names_iff,
      Option.ne_none_iff_exists']
  rw [hset, Set.ncard_coe_finset, List.toFinset_card_of_nodup h.nodup, names, List.length_map, size]

/-! ## The law -/

/-- **The law of registration.**

After any run on an empty table, the names are listed in strictly increasing order of their bytes,
they are exactly those that can be looked up, and they are counted right.  A name keeps its operator
in every continuation.  Registering one name fails just when it is there, and then changes nothing;
otherwise the name is added and all others are as before.  Registering all keywords succeeds just
when none of them is there; otherwise the first of them that is there is the error, and exactly
those before it are added. -/
theorem registration_law (registrations : List Registration) :
    let t := empty.after registrations
    ((t.names.Pairwise fun a b => nameBytes a < nameBytes b) ∧
      (∀ name, name ∈ t.names ↔ ∃ op, t.lookup? name = some op) ∧
      t.size = {name | t.lookup? name ≠ none}.ncard ∧ (t.isEmpty = true ↔ t.size = 0)) ∧
    (∀ later name op, t.lookup? name = some op →
      (empty.after (registrations ++ later)).lookup? name = some op) ∧
    (∀ name op,
      ((register name op).perform t = (.error (.keywordTaken name), t) ↔
        t.lookup? name ≠ none) ∧
      (t.lookup? name = none → ∃ t', (register name op).perform t = (.ok (), t') ∧
        t'.lookup? name = some op ∧ ∀ other, other ≠ name → t'.lookup? other = t.lookup? other)) ∧
    ((∃ t', registerAll.perform t = (.ok (), t')) ↔ ∀ op : Operator, t.lookup? op.keyword = none) ∧
    ((∀ op : Operator, t.lookup? op.keyword = none) →
      ∃ t', registerAll.perform t = (.ok (), t') ∧ t.Adds Operator.all t') ∧
    ∀ before op later, Operator.all = before ++ op :: later →
      (∀ o ∈ before, t.lookup? o.keyword = none) → t.lookup? op.keyword ≠ none →
      ∃ t', registerAll.perform t = (.error (.keywordTaken op.keyword), t') ∧ t.Adds before t' := by
  intro t
  have hordered : t.Ordered := ordered_after registrations
  refine ⟨⟨hordered, fun _ => mem_names_iff, hordered.size_eq_ncard, ?_⟩, ?_,
    fun name op => ⟨perform_register_eq_error_iff name op t, ?_⟩,
    exists_perform_registerAll_eq_ok_iff t, perform_registerAll_of_free,
    fun before op later => perform_registerAll_of_taken⟩
  · rw [isEmpty, size, List.isEmpty_iff, List.length_eq_zero_iff]
  · intro later name op h
    rw [after_append]
    exact lookup?_after h later
  · intro hfree
    have hlookup := lookup?_insert hfree op
    refine ⟨_, perform_register_of_free hfree op, ?_, fun other hother => ?_⟩
    · rw [hlookup, if_pos rfl]
    · rw [hlookup, if_neg hother]

/-- A keyword is registered for another operator and stays so.  Registering all keywords stops
there, with the two before it added and the two after it not, of which one can still be registered
alone.  A name that is no keyword is in no keyword's way. -/
theorem registration_law_of_foreign_keyword :
    (empty.after ([.one "subdiv" .hull, .one "cube" .glide] ++ [.all, .all])).lookup? "subdiv" =
      some .hull ∧
    (∃ t', registerAll.perform (empty.after [.one "subdiv" .hull, .one "cube" .glide]) =
        (.error (.keywordTaken "subdiv"), t') ∧
      t'.lookup? "glide" = some .glide ∧ t'.lookup? "subdiv" = some .hull ∧
      t'.lookup? "hull" = none) ∧
    (∃ t', (register "hull" .resize).perform
        (empty.after [.one "subdiv" .hull, .one "cube" .glide, .all]) = (.ok (), t') ∧
      t'.lookup? "hull" = some .resize ∧ t'.lookup? "glide" = some .glide) ∧
    ∃ t', registerAll.perform (empty.after [.one "cube" .glide]) = (.ok (), t') ∧
      t'.lookup? "subdiv" = some .subdivision ∧ t'.lookup? "cube" = some .glide := by
  refine ⟨?_, ?_, ?_, ?_⟩
  · exact (registration_law [.one "subdiv" .hull, .one "cube" .glide]).2.1 [.all, .all] "subdiv"
      .hull (by decide)
  · obtain ⟨t', herror, hadds⟩ :=
      (registration_law [.one "subdiv" .hull, .one "cube" .glide]).2.2.2.2.2
        [.minkowski, .glide] .subdivision [.hull, .resize] rfl (by decide) (by decide)
    refine ⟨t', herror, hadds.added .glide (by decide), ?_, ?_⟩
    · rw [hadds.others "subdiv" (by decide)]
      decide
    · rw [hadds.others "hull" (by decide)]
      decide
  · obtain ⟨t', hok, hnew, hothers⟩ :=
      ((registration_law [.one "subdiv" .hull, .one "cube" .glide, .all]).2.2.1 "hull" .resize).2
        (by decide)
    refine ⟨t', hok, hnew, ?_⟩
    rw [hothers "glide" (by decide)]
    decide
  · obtain ⟨t', hok, hadds⟩ := (registration_law [.one "cube" .glide]).2.2.2.2.1
      (by rintro (_ | _) <;> decide)
    refine ⟨t', hok, hadds.added .subdivision (by decide), ?_⟩
    rw [hadds.others "cube" (by decide)]
    decide

end KeywordTable

end SolidOps
