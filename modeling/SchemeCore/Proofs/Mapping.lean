import SchemeCore.Proofs.Evaluation.Totality
import SchemeCore.Proofs.Session

/-!
# Binding a mapping

`update` is handed its pairs as a mapping, in which equal names have come together before the first
of them is bound, while a caller who binds the pairs one after another has equal names come together
in the frame.

1. A mapping has each name where it first stands among the pairs (`names_mapping`), and a datum has
   the value of the last pair for it (`mem_mapping_iff`).
2. Pairs of symbols come together in a mapping as they do in a frame (`mapping_named`), and to bind
   what has come together is to bind all of it (`Frame.bindAll_collected`): a bound name changes its
   value in place, whatever is bound in between (`Frame.bind_bind_of_ne`).
3. The first name that is no symbol ends it, and what stands before it has been bound
   (`bindPairs_named_append`).
-/

namespace SchemeCore

/-! ## Binding in a frame -/

namespace Frame

variable {f kept : Frame} {name x : String}

/-- The frame after some names have been bound in order. -/
def bindAll (f : Frame) (entries : List (String × Item)) : Frame :=
  entries.foldl (fun f entry => f.bind entry.1 entry.2) f

theorem bindAll_cons (f : Frame) (entry : String × Item) (entries : List (String × Item)) :
    f.bindAll (entry :: entries) = (f.bind entry.1 entry.2).bindAll entries := rfl

theorem bind_bind_self (f : Frame) (name : String) (v w : Item) :
    (f.bind name v).bind name w = f.bind name w := by
  induction f with
  | nil => simp [bind]
  | cons entry rest ih =>
    obtain ⟨n, u⟩ := entry
    by_cases h : n = name
    · simp [bind, h]
    · simp [bind, h, ih]

/-- A bound name changes its value in place, before or after another name is bound. -/
theorem bind_bind_of_ne (h : f.binds name = true) (hx : x ≠ name) (v w : Item) :
    (f.bind x v).bind name w = (f.bind name w).bind x v := by
  induction f with
  | nil => cases h
  | cons entry rest ih =>
    obtain ⟨n, u⟩ := entry
    by_cases hn : n = name
    · subst hn
      simp [bind, hx.symm]
    · have hrest : Frame.binds rest name = true := by simpa [binds_cons, Ne.symm hn] using h
      by_cases hnx : n = x
      · subst hnx
        simp [bind, hn]
      · simp [bind, hn, hnx, ih hrest]

theorem bindAll_bind_of_not_mem {entries : List (String × Item)} (h : f.binds name = true)
    (hname : name ∉ names entries) (w : Item) :
    (f.bindAll entries).bind name w = (f.bind name w).bindAll entries := by
  induction entries generalizing f with
  | nil => rfl
  | cons entry entries ih =>
    obtain ⟨hne, hname⟩ := not_or.1 fun hmem => hname (List.mem_cons.2 hmem)
    have hbinds : (f.bind entry.1 entry.2).binds name = true := by
      rw [binds, find?_bind_of_ne f _ hne]
      exact h
    rw [bindAll_cons, bindAll_cons, ih hbinds hname, bind_bind_of_ne h (Ne.symm hne)]

/-- To bind a name among the entries first is to bind it behind them. -/
theorem bindAll_bind (h : kept.names.Nodup) (f : Frame) (name : String) (w : Item) :
    f.bindAll (kept.bind name w) = (f.bindAll kept).bind name w := by
  induction kept generalizing f with
  | nil => rfl
  | cons entry rest ih =>
    obtain ⟨n, v⟩ := entry
    obtain ⟨hn, hrest⟩ := List.nodup_cons.1 h
    by_cases hname : n = name
    · subst hname
      -- the name is bound by now and does not come again, so the new value may come at once
      have hbinds : (f.bind n v).binds n = true := by
        rw [binds, find?_bind_self]
        rfl
      rw [bind, if_pos rfl, bindAll_cons, bindAll_cons, bindAll_bind_of_not_mem hbinds hn,
        bind_bind_self]
    · rw [bind, if_neg hname, bindAll_cons, bindAll_cons, ih hrest]

theorem bindAll_bindAll (h : kept.names.Nodup) (f : Frame) (entries : List (String × Item)) :
    f.bindAll (kept.bindAll entries) = (f.bindAll kept).bindAll entries := by
  induction entries generalizing kept with
  | nil => rfl
  | cons entry entries ih =>
    rw [bindAll_cons, bindAll_cons, ih (nodup_bind h _ _), bindAll_bind h]

/-- Entries may be collected before they are bound. -/
theorem bindAll_collected (f : Frame) (entries : List (String × Item)) :
    f.bindAll (bindAll [] entries) = f.bindAll entries := by
  have hnil : (names []).Nodup := List.nodup_nil
  exact bindAll_bindAll hnil f entries

end Frame

/-! ## Names as items -/

namespace Item

variable {a b : Item} {d : Datum}

theorem datum_agrees_iff : (datum d).agrees b = true ↔ b = datum d := by
  cases b with
  | datum e =>
    rw [agrees, beq_iff_eq, datum.injEq]
    exact eq_comm
  | foreign v => simp [agrees]

theorem agrees_datum_iff : a.agrees (datum d) = true ↔ a = datum d := by
  cases a with
  | datum e => rw [agrees, beq_iff_eq, datum.injEq]
  | foreign v => simp [agrees]

/-- A symbol equals no item but itself. -/
theorem name?_eq_of_agrees (h : a.agrees b = true) : a.name? = b.name? := by
  cases a with
  | datum d => rw [datum_agrees_iff.1 h]
  | foreign v =>
    cases b with
    | datum e => cases h
    | foreign w => rfl

/-- A bound name and its value, as a caller hands them over. -/
def named (entry : String × Item) : Item × Item := (datum (.symbol entry.1), entry.2)

theorem named_of_name? {p : Item × Item} {x : String} (h : p.1.name? = some x) :
    p = named (x, p.2) := by
  obtain ⟨name, value⟩ := p
  rcases name with (y | _ | _ | _ | _ | _ | _) | _ <;> cases h
  rfl

theorem exists_named {pairs : List (Item × Item)} (h : ∀ p ∈ pairs, p.1.name? ≠ none) :
    ∃ entries : List (String × Item), pairs = entries.map named := by
  induction pairs with
  | nil => exact ⟨[], rfl⟩
  | cons p pairs ih =>
    obtain ⟨hp, hpairs⟩ := List.forall_mem_cons.1 h
    obtain ⟨x, hx⟩ := Option.ne_none_iff_exists'.1 hp
    obtain ⟨entries, rfl⟩ := ih hpairs
    exact ⟨(x, p.2) :: entries, congrArg (· :: _) (named_of_name? hx)⟩

/-- An item has a text unless an integer in it, or the integer that it is, is too long. -/
theorem isSome_display? (h : ∀ n, n ∈ a.integers ∨ a = foreign (.whole n) → Text.IsShort n) :
    a.display?.isSome = true := by
  rcases a with d | v
  · exact (Datum.isSome_display? d).2 fun n hn => h n (.inl hn)
  · cases v with
    | whole n => exact (Text.isSome_decimal? n).2 (h n (.inr rfl))
    | nothing | truth | real | text | parseFailure => rfl

end Item

open Item (named)

/-! ## Mappings -/

namespace Chain

variable {kept pairs : List (Item × Item)} {name value : Item}

theorem mapping_concat (pairs : List (Item × Item)) (p : Item × Item) :
    mapping (pairs ++ [p]) = insertPair p.1 p.2 (mapping pairs) := by
  rw [mapping, List.foldl_concat]
  rfl

theorem names_insertPair (name value : Item) (kept : List (Item × Item)) :
    (insertPair name value kept).map (·.1) =
      if (kept.map (·.1)).any (·.agrees name) then kept.map (·.1)
      else kept.map (·.1) ++ [name] := by
  induction kept with
  | nil => rfl
  | cons p rest ih =>
    obtain ⟨n, v⟩ := p
    rw [insertPair]
    by_cases h : n.agrees name = true
    · simp [h]
    · rw [if_neg h, List.map_cons, ih]
      simp only [List.map_cons, List.any_cons, Bool.eq_false_iff.2 h, Bool.false_or]
      split <;> rfl

/-- A mapping has each name where it first stands among the pairs. -/
theorem names_mapping (pairs : List (Item × Item)) : (mapping pairs).map (·.1) =
    (pairs.map (·.1)).eraseDupsBy fun name earlier => earlier.agrees name := by
  have hloop : ∀ kept : List (Item × Item),
      (pairs.foldl (fun kept p => insertPair p.1 p.2 kept) kept).map (·.1) =
        List.eraseDupsBy.loop (fun name earlier => earlier.agrees name) (pairs.map (·.1))
          (kept.map (·.1)).reverse := by
    induction pairs with
    | nil =>
      intro kept
      exact (List.reverse_reverse _).symm
    | cons p pairs ih =>
      intro kept
      rw [List.foldl_cons, ih, names_insertPair, List.map_cons, List.eraseDupsBy.loop,
        List.any_reverse]
      cases (kept.map (·.1)).any (·.agrees p.1) with
      | true => rfl
      | false => simp
  exact hloop []

/-- No name in it equals an earlier one. -/
def Distinct (kept : List (Item × Item)) : Prop :=
  (kept.map (·.1)).Pairwise fun earlier name => earlier.agrees name = false

theorem Distinct.insertPair (h : Distinct kept) (name value : Item) :
    Distinct (insertPair name value kept) := by
  rw [Distinct, names_insertPair]
  split
  · exact h
  · rename_i hany
    refine List.pairwise_append.2 ⟨h, List.pairwise_singleton _ _, fun m hm n hn => ?_⟩
    rw [List.mem_singleton.1 hn, Bool.eq_false_iff]
    exact fun hagrees => hany (List.any_eq_true.2 ⟨m, hm, hagrees⟩)

theorem distinct_mapping (pairs : List (Item × Item)) : Distinct (mapping pairs) := by
  induction pairs using List.reverseRecOn with
  | nil => exact List.Pairwise.nil
  | append_singleton pairs p ih => exact mapping_concat pairs p ▸ ih.insertPair _ _

theorem mem_insertPair {d : Datum} {w : Item} (h : Distinct kept) :
    (.datum d, w) ∈ insertPair name value kept ↔
      if name = .datum d then w = value else (.datum d, w) ∈ kept := by
  induction kept with
  | nil =>
    split <;> rename_i hd
    · simp [insertPair, hd]
    · simp [insertPair, Ne.symm hd]
  | cons p rest ih =>
    obtain ⟨n, v⟩ := p
    obtain ⟨hn, hrest⟩ := List.pairwise_cons.1 h
    rw [insertPair]
    by_cases hagrees : n.agrees name = true
    · rw [if_pos hagrees, List.mem_cons, List.mem_cons, Prod.mk.injEq, Prod.mk.injEq]
      split <;> rename_i hd
      · -- this is the pair for `d`, so that there is no other
        subst hd
        have hnot : (.datum d, w) ∉ rest := fun hmem => by
          have hne := hn _ (List.mem_map_of_mem hmem)
          rw [hagrees] at hne
          cases hne
        simp [hnot, Item.agrees_datum_iff.1 hagrees]
      · have hne : Item.datum d ≠ n := fun he =>
          hd (Item.datum_agrees_iff.1 (he ▸ hagrees))
        simp [hne]
    · rw [if_neg hagrees, List.mem_cons, List.mem_cons, ih hrest]
      split <;> rename_i hd
      · subst hd
        have hne : Item.datum d ≠ n := fun he => hagrees (Item.agrees_datum_iff.2 he.symm)
        simp [hne]
      · rfl

/-- A datum has the value of the last pair for it. -/
theorem mem_mapping_iff {d : Datum} {v : Item} :
    (.datum d, v) ∈ mapping pairs ↔ pairs.reverse.lookup (.datum d) = some v := by
  induction pairs using List.reverseRecOn with
  | nil => simp [mapping]
  | append_singleton pairs p ih =>
    rw [mapping_concat, mem_insertPair (distinct_mapping pairs), ih, List.reverse_concat,
      List.lookup_cons]
    by_cases hd : p.1 = .datum d
    · simp [hd, eq_comm]
    · simp [hd, beq_false_of_ne (Ne.symm hd)]

theorem insertPair_named (entry : String × Item) (kept : List (String × Item)) :
    insertPair (named entry).1 (named entry).2 (kept.map named) =
      (Frame.bind kept entry.1 entry.2).map named := by
  induction kept with
  | nil => rfl
  | cons first rest ih =>
    obtain ⟨n, v⟩ := first
    have hstep : insertPair (named entry).1 (named entry).2 (((n, v) :: rest).map named) =
        if (Item.datum (.symbol n)).agrees (named entry).1 then
          (.datum (.symbol n), entry.2) :: rest.map named
        else named (n, v) :: insertPair (named entry).1 (named entry).2 (rest.map named) := rfl
    rw [hstep, Frame.bind]
    by_cases h : n = entry.1
    · have hagrees : (Item.datum (.symbol n)).agrees (named entry).1 = true :=
        Item.datum_agrees_iff.2 (h ▸ rfl)
      rw [if_pos h, if_pos hagrees]
      rfl
    · have hagrees : ¬ (Item.datum (.symbol n)).agrees (named entry).1 = true := fun hagrees =>
        h (by simpa [named, eq_comm] using Item.datum_agrees_iff.1 hagrees)
      rw [if_neg h, if_neg hagrees, ih]
      rfl

/-- Symbols come together in a mapping as they do in a frame. -/
theorem mapping_named (entries : List (String × Item)) :
    mapping (entries.map named) = (Frame.bindAll [] entries).map named := by
  induction entries using List.reverseRecOn with
  | nil => rfl
  | append_singleton entries entry ih =>
    rw [List.map_append, List.map_singleton, mapping_concat, ih, insertPair_named, Frame.bindAll,
      Frame.bindAll, List.foldl_concat]

theorem exists_name_insertPair {x : Option String} :
    (∃ n ∈ (insertPair name value kept).map (·.1), n.name? = x) ↔
      (∃ n ∈ kept.map (·.1), n.name? = x) ∨ name.name? = x := by
  rw [names_insertPair]
  split
  · rename_i hany
    obtain ⟨n, hn, hagrees⟩ := List.any_eq_true.1 hany
    constructor
    · exact .inl
    · rintro (h | h)
      · exact h
      · exact ⟨n, hn, (Item.name?_eq_of_agrees hagrees).trans h⟩
  · simp only [List.mem_append, List.mem_singleton, or_and_right, exists_or, exists_eq_left]

theorem exists_name_mapping {x : Option String} :
    (∃ n ∈ (mapping pairs).map (·.1), n.name? = x) ↔ ∃ n ∈ pairs.map (·.1), n.name? = x := by
  induction pairs using List.reverseRecOn with
  | nil => rfl
  | append_singleton pairs p ih =>
    rw [mapping_concat, exists_name_insertPair, ih]
    simp only [List.map_append, List.map_singleton, List.mem_append, List.mem_singleton,
      or_and_right, exists_or, exists_eq_left]

/-- If a name is no symbol, then the mapping has a first name that is none. -/
theorem exists_mapping_eq (h : ∃ n ∈ pairs.map (·.1), n.name? = none) :
    ∃ (done : List (String × Item)) (bad v : Item) (later : List (Item × Item)),
      mapping pairs = done.map named ++ (bad, v) :: later ∧ bad.name? = none := by
  obtain ⟨n, hn, hnone⟩ := exists_name_mapping.2 h
  obtain ⟨p, hp, rfl⟩ := List.mem_map.1 hn
  have hfound : ((mapping pairs).find? (·.1.name?.isNone)).isSome = true := by
    rw [List.find?_isSome]
    exact ⟨p, hp, Option.isNone_iff_eq_none.2 hnone⟩
  obtain ⟨q, hq⟩ := Option.isSome_iff_exists.1 hfound
  obtain ⟨hbad, before, later, hmapping, hbefore⟩ := List.find?_eq_some_iff_append.1 hq
  obtain ⟨done, rfl⟩ := Item.exists_named fun p hp hnone => by simpa [hnone] using hbefore p hp
  exact ⟨done, q.1, q.2, later, hmapping, Option.isNone_iff_eq_none.1 hbad⟩

/-! ## Binding the pairs of a mapping -/

theorem bindPairs_named_append (c : Chain) (entries : List (String × Item))
    (rest : List (Item × Item)) :
    c.bindPairs (entries.map named ++ rest) =
      { c with current := c.current.bindAll entries }.bindPairs rest := by
  induction entries generalizing c with
  | nil => rfl
  | cons entry entries ih =>
    have hstep : c.bindPairs ((entry :: entries).map named ++ rest) =
        (c.bind entry.1 entry.2).bindPairs (entries.map named ++ rest) := rfl
    rw [hstep, ih]
    rfl

theorem update_named (c : Chain) (entries : List (String × Item)) :
    c.update (entries.map named) = ({ c with current := c.current.bindAll entries }, none) := by
  have hbind := c.bindPairs_named_append (Frame.bindAll [] entries) []
  rw [List.append_nil, Frame.bindAll_collected] at hbind
  rw [update, mapping_named, hbind]
  rfl

theorem update_of_mapping_eq {c : Chain} {done : List (String × Item)} {bad v : Item}
    {later : List (Item × Item)} (h : mapping pairs = done.map named ++ (bad, v) :: later)
    (hbad : bad.name? = none) :
    c.update pairs =
      ({ c with current := c.current.bindAll done }, some (.cannotBind bad)) := by
  have hrefused (c : Chain) : c.bindItem bad v = .error (.cannotBind bad) := by
    rw [bindItem, hbad]
  rw [update, h, bindPairs_named_append, bindPairs, hrefused]

end Chain

/-! ## Binding in a scope -/

namespace Session

/-- The session after some names have been bound in a scope, one after another. -/
def bindEach (s : Session) (scope : Nat) (entries : List (String × Item)) : Session :=
  entries.foldl (fun s entry => (s.bind scope (.datum (.symbol entry.1)) entry.2).2) s

theorem bindEach_eq (s : Session) (scope : Nat) (entries : List (String × Item)) :
    s.bindEach scope entries = { s with
      forest := s.forest.putFrame scope ((s.forest.frame scope).bindAll entries) } := by
  induction entries generalizing s with
  | nil =>
    have hsame := s.forest.putFrame_frame scope
    exact congrArg (fun forest => { s with forest }) hsame.symm
  | cons entry entries ih =>
    rw [bindEach, List.foldl_cons, bind_symbol]
    refine (ih _).trans (congrArg (fun forest => { s with forest }) ?_)
    rw [Frame.bindAll_cons]
    rcases Nat.lt_or_ge scope s.forest.scopes.length with h | h
    · rw [Forest.frame_putFrame h, Forest.putFrame_putFrame]
    · rw [Forest.putFrame_of_length_le h, Forest.putFrame_of_length_le h,
        Forest.putFrame_of_length_le h]

/-- An update that binds some names is those bindings, one after another. -/
theorem update_eq {s : Session} {scope : Nat} {pairs : List (Item × Item)}
    {entries : List (String × Item)} {stopped : Option NameError}
    (h : (s.forest.chain scope).update pairs =
      ({ s.forest.chain scope with current := (s.forest.frame scope).bindAll entries }, stopped)) :
    s.update scope pairs = (stopped, s.bindEach scope entries) := by
  rw [update, change, h]
  dsimp only
  rw [Forest.putChain_current, bindEach_eq]

/-- To bind a mapping is to bind its pairs one after another. If all names are symbols, the mapping
makes no difference: the session is the one that binding the original pairs leaves, down to the
order of the bindings. Else the first name of the mapping that is no symbol is refused, and the
session is the one that binding the entries before it leaves, each with the last of its values,
even one that was given behind the refused name. All other scopes stay as they are.

Of the values in a mapping those of data are described: foreign names are never bound. -/
theorem update_binds_mapping (s : Session) (scope : Nat) (pairs : List (Item × Item)) :
    (∀ entries : List (String × Item), pairs = entries.map named →
      s.update scope pairs = (none, s.bindEach scope entries)) ∧
    ((∃ name ∈ pairs.map (·.1), name.name? = none) →
      ∃ (done : List (String × Item)) (bad v : Item) (later : List (Item × Item)),
        Chain.mapping pairs = done.map named ++ (bad, v) :: later ∧ bad.name? = none ∧
        (∀ entry ∈ done, pairs.reverse.lookup (.datum (.symbol entry.1)) = some entry.2) ∧
        s.update scope pairs = (some (.cannotBind bad), s.bindEach scope done) ∧
        (NameError.cannotBind bad).cls = .invalidSymbol ∧
        ((∀ n, n ∈ bad.integers ∨ bad = .foreign (.whole n) → Text.IsShort n) →
          ∃ text, bad.display? = some text ∧ (NameError.cannotBind bad).message? =
            some ("Cannot bind " ++ text ++ ": not a symbol"))) ∧
    (Chain.mapping pairs).map (·.1) =
      ((pairs.map (·.1)).eraseDupsBy fun name earlier => earlier.agrees name) ∧
    (∀ (d : Datum) (v : Item),
      (.datum d, v) ∈ Chain.mapping pairs ↔ pairs.reverse.lookup (.datum d) = some v) ∧
    ∀ n ≠ scope, (s.update scope pairs).2.forest.scopes[n]? = s.forest.scopes[n]? := by
  have hsymbols (entries : List (String × Item)) (h : pairs = entries.map named) :
      s.update scope pairs = (none, s.bindEach scope entries) :=
    update_eq (h ▸ Chain.update_named _ entries)
  have hrefused {done : List (String × Item)} {bad v : Item} {later : List (Item × Item)}
      (hmapping : Chain.mapping pairs = done.map named ++ (bad, v) :: later)
      (hbad : bad.name? = none) :
      s.update scope pairs = (some (.cannotBind bad), s.bindEach scope done) :=
    update_eq (Chain.update_of_mapping_eq hmapping hbad)
  refine ⟨hsymbols, fun h => ?_, Chain.names_mapping pairs, fun _ _ => Chain.mem_mapping_iff,
    fun n hn => ?_⟩
  · obtain ⟨done, bad, v, later, hmapping, hbad⟩ := Chain.exists_mapping_eq h
    refine ⟨done, bad, v, later, hmapping, hbad, fun entry hentry => ?_, hrefused hmapping hbad,
      rfl, fun hshort => ?_⟩
    · rw [← Chain.mem_mapping_iff, hmapping]
      exact List.mem_append_left _ (List.mem_map_of_mem hentry)
    · obtain ⟨text, htext⟩ := Option.isSome_iff_exists.1 (Item.isSome_display? hshort)
      exact ⟨text, htext, by rw [NameError.message?, htext, Option.map_some]⟩
  · -- whatever is bound, it is bound in this one scope
    have hbound (entries : List (String × Item)) :
        (s.bindEach scope entries).forest.scopes[n]? = s.forest.scopes[n]? := by
      rw [bindEach_eq, Forest.scopes_putFrame, if_neg hn.symm]
    by_cases h : ∃ name ∈ pairs.map (·.1), name.name? = none
    · obtain ⟨done, bad, v, later, hmapping, hbad⟩ := Chain.exists_mapping_eq h
      rw [hrefused hmapping hbad, hbound]
    · obtain ⟨entries, hentries⟩ := Item.exists_named fun p hp hname =>
        h ⟨p.1, List.mem_map_of_mem hp, hname⟩
      rw [hsymbols entries hentries, hbound]

/-- `a` is given twice, once behind the integer that is refused; `x` is bound before. -/
theorem update_binds_mapping_refused :
    let s : Session := { forest := ⟨[⟨[("x", .datum (.integer 0))], none⟩]⟩ }
    let entries : List (String × Item) := [("x", .datum (.integer 1)), ("x", .datum (.integer 2))]
    let pairs : List (Item × Item) :=
      [(.datum (.symbol "a"), .datum (.integer 1)), (.datum (.integer 5), .datum (.integer 2)),
        (.datum (.symbol "x"), .datum (.integer 3)), (.datum (.symbol "a"), .datum (.integer 4))]
    let refused : NameError := .cannotBind (.datum (.integer 5))
    s.update 0 (entries.map named) = (none, s.bindEach 0 entries) ∧
      Chain.mapping pairs = [(.datum (.symbol "a"), .datum (.integer 4)),
        (.datum (.integer 5), .datum (.integer 2)), (.datum (.symbol "x"), .datum (.integer 3))] ∧
      s.update 0 pairs = (some refused, s.bindEach 0 [("a", .datum (.integer 4))]) ∧
      refused.message? = some "Cannot bind Integer(5): not a symbol" := by
  intro s entries pairs refused
  have hpairs : Chain.mapping pairs = [(.datum (.symbol "a"), .datum (.integer 4)),
      (.datum (.integer 5), .datum (.integer 2)), (.datum (.symbol "x"), .datum (.integer 3))] := by
    rfl
  refine ⟨(update_binds_mapping s 0 _).1 entries rfl, hpairs, ?_, by decide⟩
  obtain ⟨done, bad, v, later, hmapping, hbad, -, hupdate, -⟩ :=
    (update_binds_mapping s 0 pairs).2.1 ⟨.datum (.integer 5), by simp [pairs], rfl⟩
  rw [hpairs] at hmapping
  -- the refused name is the second one: the first is a symbol, and what is bound are symbols
  rcases done with _ | ⟨⟨first, value⟩, _ | ⟨⟨second, value'⟩, done⟩⟩
  · cases hmapping
    cases hbad
  · cases hmapping
    exact hupdate
  · cases hmapping

end Session

end SchemeCore
