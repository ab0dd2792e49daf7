import MiniScheme.Proofs.Datum.Places
import MiniScheme.Proofs.Datum.RoundTrip
import MiniScheme.Proofs.Token.Padding

/-!
# Layout between tokens is not read

A text without lexical error has the same tokens with padding put in before one of them, but for the
places of that token and those after it. Reading goes by the kinds of tokens alone
(`MiniScheme.Proofs.Datum.Places`), so the same data are read, or the same error is found.
-/
namespace MiniScheme

open Reader (asItems readAll)

/-- Reading two texts to their ends gives data that are equal one for one, or one error, places
aside. -/
inductive Datum.ReadsAlike :
    Except ReadError (List Datum) → Except ReadError (List Datum) → Prop where
  | data {ds ds' : List Datum}
      (equal : List.Forall₂ (fun d d' => d.equal d' ∧ d.erase = d'.erase) ds ds') :
      ReadsAlike (.ok ds) (.ok ds')
  | error {e e' : ReadError} (same : e.erase = e'.erase) : ReadsAlike (.error e) (.error e')

/-- The data of two lists of readings that are the same, places aside, or their first errors. -/
theorem mapM_alike {readings readings' : List (Except ReadError Datum)}
    (same : readings.map (ReadError.eraseIn Sexpr.erase) =
      readings'.map (ReadError.eraseIn Sexpr.erase)) :
    (∃ ds ds', readings.mapM id = .ok ds ∧ readings'.mapM id = .ok ds' ∧
        ds.map Sexpr.erase = ds'.map Sexpr.erase) ∨
      ∃ e e', readings.mapM id = .error e ∧ readings'.mapM id = .error e' ∧
        e.erase = e'.erase := by
  induction readings generalizing readings' with
  | nil =>
    obtain rfl := List.map_eq_nil_iff.mp same.symm
    exact .inl ⟨[], [], rfl, rfl, rfl⟩
  | cons reading rest ih =>
    obtain ⟨reading', rest', rfl, here, later⟩ := List.map_eq_cons_iff.mp same.symm
    cases reading with
    | error e =>
      cases reading' with
      | ok d => cases here
      | error e' => exact .inr ⟨e, e', rfl, rfl, (Except.error.inj here).symm⟩
    | ok d =>
      cases reading' with
      | error e' => cases here
      | ok d' =>
        simp only [List.mapM_cons, id_eq]
        obtain ⟨ds, ds', all, all', erased⟩ | ⟨e, e', failed, failed', erased⟩ := ih later.symm
        · refine .inl ⟨d :: ds, d' :: ds', by rw [all]; rfl, by rw [all']; rfl, ?_⟩
          rw [List.map_cons, List.map_cons, erased, ← Except.ok.inj here]
        · exact .inr ⟨e, e', by rw [failed]; rfl, by rw [failed']; rfl, erased⟩

/-- Data that differ in places only are equal one for one, if their atoms equal themselves. -/
theorem Datum.forall₂_equal {ds ds' : List Datum}
    (erased : ds'.map Sexpr.erase = ds.map Sexpr.erase)
    (selfEqual : ∀ d ∈ ds, ∀ a, Sexpr.Occurs a d → a.equal a) :
    List.Forall₂ (fun d d' => d.equal d' ∧ d.erase = d'.erase) ds' ds := by
  induction ds generalizing ds' with
  | nil =>
    obtain rfl := List.map_eq_nil_iff.mp erased
    exact .nil
  | cons d ds ih =>
    obtain ⟨d', rest, rfl, same, later⟩ := List.map_eq_cons_iff.mp erased
    obtain ⟨first, others⟩ := List.forall_mem_cons.mp selfEqual
    exact .cons ⟨equal_of_erase_eq same first, same⟩ (ih later others)

/-- Texts with the same items, places aside, are read alike. -/
theorem Datum.readsAlike_of_erase {source source' : String}
    (same : (scan source').map Item.erase = (scan source).map Item.erase) :
    ReadsAlike (parseAll source') (parseAll source) := by
  have readings : (readAll defaultMaxDepth (scan source')).map (ReadError.eraseIn Sexpr.erase) =
      (readAll defaultMaxDepth (scan source)).map (ReadError.eraseIn Sexpr.erase) := by
    rw [← Reader.readAll_erase, same, Reader.readAll_erase]
  obtain ⟨ds', ds, all', all, erased⟩ | ⟨e', e, failed', failed, erased⟩ := mapM_alike readings
  · rw [parseAll, parseAll, all, all']
    obtain ⟨p, k, parts, scanned, writes, -⟩ :=
      Reader.writesAll_of_readAll (Reader.eq_map_ok_of_mapM all)
    refine .data (forall₂_equal erased fun d member a occurs => equal_self_of_spelled scanned ?_)
    refine spelled_of_derivesAll (Grammar.derivesAll_of_writesAll writes) ?_
    exact ⟨d.erase, List.mem_map_of_mem member, (occurs_erase a d).mpr occurs⟩
  · rw [parseAll, parseAll, failed, failed']
    exact .error erased

/-- Layout between tokens does not matter: whatever padding is put in where a token begins, the
tokens before are the same, that token and those after it are the same further down by its length,
and what is read is the same. -/
theorem padding_only_moves {source : String} {front back : List Token} {t : Token}
    (tokens : tokenize source = .ok (front ++ t :: back)) :
    ∃ before after, source.toList = before ++ after ∧ t.span.start = byteLength before ∧
      ∀ w, Padding w →
        tokenize (String.ofList (before ++ w ++ after)) =
            .ok (front ++ (t :: back).map (Token.up (byteLength w) (w.count '\n'))) ∧
          Datum.ReadsAlike (Datum.parseAll (String.ofList (before ++ w ++ after)))
            (Datum.parseAll source) := by
  have scanned := Datum.scan_of_tokenize tokens
  have found : Scan.itemsOnto [] .first source.toList =
      asItems front ++ .ok t :: asItems back := by
    rw [← Reader.asItems_cons, ← Reader.asItems_append]
    exact scanned
  obtain ⟨before, after, split, start, puts⟩ := Scan.exists_gap found (by simp [asItems])
  refine ⟨before, after, split, ?_, fun w padding => ?_⟩
  · change t.span.start = _ at start
    simpa [Position.advance, Position.first] using start
  · have put : scan (String.ofList (before ++ w ++ after)) =
        asItems (front ++ (t :: back).map (Token.up (byteLength w) (w.count '\n'))) := by
      rw [scan, Scan.items, String.toList_ofList, List.append_assoc, puts w padding,
        Reader.asItems_append, ← Reader.asItems_cons, asItems, asItems, asItems, List.map_map,
        List.map_map]
      rfl
    refine ⟨Datum.tokenize_of_scan put, Datum.readsAlike_of_erase ?_⟩
    rw [put, scanned, asItems, asItems, List.map_map, List.map_map, List.map_append,
      List.map_append, List.map_map]
    rfl

/-- Between a number and a symbol that could have been its exponent, with a bracket in a comment. -/
theorem padding_only_moves_before_exponent :
    tokenize "(1e+'b)" =
        .ok ([⟨.opener .round, ⟨0, 1⟩, 1⟩, ⟨.atom (.number 1), ⟨1, 2⟩, 1⟩] ++
          ⟨.atom (.symbol "e+"), ⟨2, 4⟩, 1⟩ :: [⟨.quote, ⟨4, 5⟩, 1⟩,
            ⟨.atom (.symbol "b"), ⟨5, 6⟩, 1⟩, ⟨.closer .round, ⟨6, 7⟩, 1⟩]) ∧
      Padding ";)\n\t".toList ∧
      ∃ before after, "(1e+'b)".toList = before ++ after ∧ byteLength before = 2 ∧
        tokenize (String.ofList (before ++ ";)\n\t".toList ++ after)) =
            .ok [⟨.opener .round, ⟨0, 1⟩, 1⟩, ⟨.atom (.number 1), ⟨1, 2⟩, 1⟩,
              ⟨.atom (.symbol "e+"), ⟨6, 8⟩, 2⟩, ⟨.quote, ⟨8, 9⟩, 2⟩,
              ⟨.atom (.symbol "b"), ⟨9, 10⟩, 2⟩, ⟨.closer .round, ⟨10, 11⟩, 2⟩] ∧
          Datum.ReadsAlike
            (Datum.parseAll (String.ofList (before ++ ";)\n\t".toList ++ after)))
            (Datum.parseAll "(1e+'b)") := by
  have tokens : tokenize "(1e+'b)" =
      .ok ([⟨.opener .round, ⟨0, 1⟩, 1⟩, ⟨.atom (.number 1), ⟨1, 2⟩, 1⟩] ++
        ⟨.atom (.symbol "e+"), ⟨2, 4⟩, 1⟩ :: [⟨.quote, ⟨4, 5⟩, 1⟩,
          ⟨.atom (.symbol "b"), ⟨5, 6⟩, 1⟩, ⟨.closer .round, ⟨6, 7⟩, 1⟩]) := by
    decide +kernel
  have padding : Padding ";)\n\t".toList := by
    have body : Padding (';' :: ([')'] ++ '\n' :: ['\t'])) :=
      .comment (by decide) (.layout rfl .nil)
    simpa using body
  obtain ⟨before, after, split, start, moves⟩ := padding_only_moves tokens
  obtain ⟨moved, alike⟩ := moves _ padding
  exact ⟨tokens, padding, before, after, split, start.symm, moved, alike⟩

end MiniScheme
