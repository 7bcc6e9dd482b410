import Waywallen.Wire.Framing

/-!
# Frames that arrive

A stream that consists of whole frames, with at most one cut frame at its end, is read back frame
by frame. The senders leave such a stream as long as none of them goes on after a cut frame.
-/

universe u

namespace Waywallen.Wire

variable {F : Type u}

/-! ## What one send leaves -/

theorem writeAll_bytes (bytes : List UInt8) (replies : List WriteReply) :
    ∃ k ≤ bytes.length, (writeAll bytes replies).bytes = bytes.take k ∧
      ((writeAll bytes replies).result = .ok ↔ k = bytes.length) := by
  induction bytes, replies using writeAll.induct with
  | case1 replies => exact ⟨0, by simp [writeAll]⟩
  | case2 b bytes => exact ⟨0, by simp [writeAll]⟩
  | case3 b bytes replies ih => simpa [writeAll] using ih
  | case4 b bytes e replies he => exact ⟨0, by simp [writeAll, he]⟩
  | case5 b bytes replies => exact ⟨0, by simp [writeAll]⟩
  | case6 b bytes n replies hn ih =>
    obtain ⟨k, hk, hbytes, hresult⟩ := ih
    rw [List.length_drop] at hk hresult
    refine ⟨min n (b :: bytes).length + k, by omega, ?_, ?_⟩
    · simp only [writeAll, if_neg hn, hbytes]
      rcases Nat.le_total n (b :: bytes).length with hle | hle
      · rw [Nat.min_eq_left hle, List.take_add]
      · rw [Nat.min_eq_right hle, List.drop_eq_nil_of_le hle, List.take_nil, List.append_nil,
          List.take_of_length_le hle, List.take_of_length_le (by omega)]
    · simp only [writeAll, if_neg hn, hresult]
      omega

/-- An answer after which the writer goes on. -/
def WriteReply.progresses : WriteReply → Bool
  | .accepted n => 0 < n
  | .failed e => e = .eintr

theorem writeAll_progresses {bytes : List UInt8} {replies : List WriteReply}
    (h : ∀ reply ∈ replies, reply.progresses) :
    (∀ e, (writeAll bytes replies).result ≠ .failed e) ∧
      ∀ reply ∈ (writeAll bytes replies).replies, reply.progresses := by
  induction bytes, replies using writeAll.induct with
  | case1 replies => exact ⟨by simp [writeAll], by simpa [writeAll] using h⟩
  | case2 b bytes => exact ⟨by simp [writeAll], by simp [writeAll]⟩
  | case3 b bytes replies ih =>
    simpa [writeAll] using ih fun reply hreply => h reply (List.mem_cons_of_mem _ hreply)
  | case4 b bytes e replies he =>
    exact absurd (h _ List.mem_cons_self) (by simpa [WriteReply.progresses] using he)
  | case5 b bytes replies =>
    exact absurd (h _ List.mem_cons_self) (by simp [WriteReply.progresses])
  | case6 b bytes n replies hn ih =>
    simpa [writeAll, hn] using ih fun reply hreply => h reply (List.mem_cons_of_mem _ hreply)

/-- The first bytes of the frame are on the wire, and all of them exactly when the send was ok. -/
structure Sent.Begins (sent : Sent F) (frame : Frame F) : Prop where
  wire : ∃ m ≤ frame.total, sent.wire = frame.cells.take m ∧
    (sent.result = .ok ↔ m = frame.total)
  fits : sent.wire ≠ [] → frame.Fits

theorem Sent.Begins.of_nil {frame : Frame F} {result : SendResult} (h : result ≠ .ok) :
    Sent.Begins ⟨result, []⟩ frame where
  wire := ⟨0, Nat.zero_le _, rfl, by simp [h, Frame.total]; omega⟩
  fits := fun hwire => absurd rfl hwire

theorem writeFramed_begins (frame : Frame F) (replies : List WriteReply) :
    (writeFramed frame replies).Begins frame := by
  unfold writeFramed
  split_ifs with hfds htotal
  · exact .of_nil (by simp)
  · exact .of_nil (by simp)
  · have hpos : 0 < frame.total := by unfold Frame.total; omega
    rcases retried replies with _ | ⟨n | e, rest⟩
    · exact .of_nil (by simp)
    · refine ⟨⟨_, ByteStream.took_le _ hpos, rfl, ?_⟩, fun _ => ⟨by omega, by omega⟩⟩
      dsimp only
      split_ifs with h <;> simp [h]
    · exact .of_nil (by simp)

/-- The rest of a frame from its `n`-th byte on goes out behind its first bytes. -/
theorem Frame.take_append_plain (frame : Frame F) {n k : ℕ} (hn : 0 < n) :
    frame.cells.take n ++ ByteStream.plain (((frame.header ++ frame.body).drop n).take k) =
      frame.cells.take (n + k) := by
  have hplain : (ByteStream.plain (((frame.header ++ frame.body).drop n).take k) : List (Cell F)) =
      (ByteStream.plain ((frame.header ++ frame.body).drop n)).take k := by
    simp [ByteStream.plain, List.map_take]
  rw [hplain]
  exact ByteStream.take_message_append hn

/-- The two parts that the bridge writes behind a short first call. -/
theorem Frame.drop_parts (frame : Frame F) (n : ℕ) :
    (frame.header ++ frame.body).drop n =
      frame.header.drop (4 - if n < 4 then 4 - n else 0) ++
        frame.body.drop (if n < 4 then 0 else n - 4) := by
  rw [List.drop_append, Frame.length_header]
  split_ifs with h
  · rw [Nat.sub_sub_self (Nat.le_of_lt h), Nat.sub_eq_zero_of_le (Nat.le_of_lt h)]
  · have hle : frame.header.length ≤ 4 := by simp
    rw [Nat.sub_zero, List.drop_eq_nil_of_le hle,
      List.drop_eq_nil_of_le (Nat.le_trans hle (Nat.le_of_not_lt h))]

theorem bridgeSendFrame_begins (frame : Frame F) (replies : List WriteReply) :
    (bridgeSendFrame frame replies).Begins frame := by
  unfold bridgeSendFrame
  split_ifs with hbody hfds
  · exact .of_nil (by simp)
  · exact .of_nil (by simp)
  have hpos : 0 < frame.total := by unfold Frame.total; omega
  have hfits : frame.Fits := ⟨by omega, by unfold bridgeMaxBody Frame.total at *; omega⟩
  rcases retried replies with _ | ⟨n | e, rest⟩
  · exact .of_nil (by simp)
  · refine ⟨?_, fun _ => hfits⟩
    have hdone := ByteStream.took_le n hpos
    have hdone' := ByteStream.took_pos n frame.total
    dsimp only
    generalize ByteStream.took n frame.total = done at hdone hdone'
    have hparts := frame.drop_parts done
    have hlength := congrArg List.length hparts
    generalize (if done < 4 then 4 - done else 0) = headLeft at *
    generalize (if done < 4 then 0 else done - 4) = bodyDone at *
    rw [List.length_append, List.length_drop, List.length_append, Frame.length_header] at hlength
    obtain ⟨k, hk, hbytes, hok⟩ := writeAll_bytes (frame.header.drop (4 - headLeft)) rest
    have htotal : frame.total = 4 + frame.body.length := rfl
    by_cases hall : done = frame.total
    · rw [if_pos hall]
      exact ⟨done, hdone, rfl, by simp [hall]⟩
    rw [if_neg hall]
    by_cases hhead : (writeAll (frame.header.drop (4 - headLeft)) rest).result = .ok
    · rw [if_pos hhead]
      obtain ⟨k', hk', hbytes', hok'⟩ := writeAll_bytes (frame.body.drop bodyDone)
        (writeAll (frame.header.drop (4 - headLeft)) rest).replies
      have hwritten : (frame.header.drop (4 - headLeft)).take k ++
          (frame.body.drop bodyDone).take k' =
            ((frame.header ++ frame.body).drop done).take (k + k') := by
        rw [hparts, hok.1 hhead, List.take_length, List.take_length_add_append]
      refine ⟨done + (k + k'), by omega, ?_, hok'.trans ?_⟩
      · rw [hbytes, hbytes', hwritten, frame.take_append_plain hdone']
      · rw [hok.1 hhead]
        omega
    · rw [if_neg hhead]
      have hlt : k < (frame.header.drop (4 - headLeft)).length :=
        Nat.lt_of_le_of_ne hk fun h => hhead (hok.2 h)
      refine ⟨done + k, by omega, ?_, ⟨fun h => absurd h hhead, fun h => ?_⟩⟩
      · rw [hbytes, ← frame.take_append_plain hdone', hparts, List.take_append_of_le_length hk]
      · omega
  · exact .of_nil (by simp)

/-! ## Whole sends -/

namespace Send

/-- Whether the kernel takes the frame once it has taken a part of it, as far as the framer leaves
it to the kernel: the control socket's framer makes one call, the bridge goes on until an answer
stops it, and the display endpoint shuts the socket down after a cut frame. -/
def whole (s : Send F) : Bool :=
  match s.framer, retried s.replies with
  | .uds, .accepted n :: _ => s.frame.total ≤ n
  | .bridge, .accepted n :: rest => s.frame.total ≤ n || rest.all WriteReply.progresses
  | _, _ => true

theorem begins (s : Send F) : s.sent.Begins s.frame := by
  unfold sent Framer.send
  cases s.framer with
  | uds => exact writeFramed_begins _ _
  | codec => exact writeFramed_begins _ _
  | bridge => exact bridgeSendFrame_begins _ _

end Send

theorem took_of_le {n total : ℕ} (hpos : 0 < total) (h : total ≤ n) :
    ByteStream.took n total = total := by
  unfold ByteStream.took
  omega

theorem writeFramed_whole {frame : Frame F} {replies : List WriteReply}
    (h : ∀ n rest, retried replies = .accepted n :: rest → frame.total ≤ n) :
    (writeFramed frame replies).result = .ok ∨ (writeFramed frame replies).wire = [] := by
  have hpos : 0 < frame.total := by unfold Frame.total; omega
  unfold writeFramed
  split_ifs
  · exact .inr rfl
  · exact .inr rfl
  · rcases hreplies : retried replies with _ | ⟨n | e, rest⟩
    · exact .inr rfl
    · exact .inl (if_pos (took_of_le hpos (h n rest hreplies)))
    · exact .inr rfl

theorem bridgeSendFrame_whole {frame : Frame F} {replies : List WriteReply}
    (h : ∀ n rest, retried replies = .accepted n :: rest →
      frame.total ≤ n ∨ ∀ reply ∈ rest, reply.progresses) :
    (∀ e, (bridgeSendFrame frame replies).result ≠ .failed e) ∨
      (bridgeSendFrame frame replies).wire = [] := by
  have hpos : 0 < frame.total := by unfold Frame.total; omega
  unfold bridgeSendFrame
  split_ifs
  · exact .inr rfl
  · exact .inr rfl
  · rcases hreplies : retried replies with _ | ⟨n | e, rest⟩
    · exact .inr rfl
    · left
      intro e
      dsimp only
      by_cases hall : ByteStream.took n frame.total = frame.total
      · rw [if_pos hall]
        simp
      rw [if_neg hall]
      have hrest : ∀ reply ∈ rest, reply.progresses :=
        (h n rest hreplies).resolve_left fun hle => hall (took_of_le hpos hle)
      generalize ByteStream.took n frame.total = done
      generalize (if done < 4 then 4 - done else 0) = headLeft
      generalize (if done < 4 then 0 else done - 4) = bodyDone
      by_cases hhead : (writeAll (frame.header.drop (4 - headLeft)) rest).result = .ok
      · rw [if_pos hhead]
        exact (writeAll_progresses (writeAll_progresses hrest).2).1 e
      · rw [if_neg hhead]
        exact (writeAll_progresses hrest).1 e
    · exact .inr rfl

/-- Nothing follows a frame of which only a part went out. -/
theorem Send.ok_of_continues {s : Send F} (hwhole : s.whole) (h : s.continues) :
    s.sent.result = .ok ∨ s.sent.wire = [] := by
  obtain ⟨framer, frame, replies⟩ := s
  cases framer with
  | uds =>
    refine writeFramed_whole fun n rest hreplies => ?_
    simpa [Send.whole, hreplies] using hwhole
  | codec =>
    left
    rcases hresult : (Send.sent ⟨.codec, frame, replies⟩).result with _ | e | _
    · rfl
    · simp [Send.continues, hresult, Framer.keepsOpen] at h
    · simp [Send.continues, hresult] at h
  | bridge =>
    have hend := bridgeSendFrame_whole fun n rest (hreplies : retried replies = _) => show
        frame.total ≤ n ∨ ∀ reply ∈ rest, reply.progresses by
      simpa [Send.whole, hreplies] using hwhole
    refine hend.imp_left fun hfailed => ?_
    · rcases hresult : (Send.sent ⟨.bridge, frame, replies⟩).result with _ | e | _
      · rfl
      · exact absurd hresult (hfailed e)
      · simp [Send.continues, hresult] at h

/-! ## Streams of frames -/

/-- A stream of the given frames and, at its end, possibly the first bytes of one more; all of them
are `known`. -/
inductive Carries (known : Frame F → Prop) : List (Frame F) → List (Cell F) → Prop
  | nil : Carries known [] []
  | cut {frame : Frame F} {n : ℕ} (hknown : known frame) (hn : n < frame.total) :
    Carries known [] (frame.cells.take n)
  | cons {frame : Frame F} {frames : List (Frame F)} {stream : List (Cell F)}
    (hknown : known frame) (h : Carries known frames stream) :
    Carries known (frame :: frames) (frame.cells ++ stream)

namespace Carries

variable {known known' : Frame F → Prop} {frames : List (Frame F)} {stream : List (Cell F)}

theorem mono (h : Carries known frames stream) (himp : ∀ frame, known frame → known' frame) :
    Carries known' frames stream := by
  induction h with
  | nil => exact .nil
  | cut hknown hn => exact .cut (himp _ hknown) hn
  | cons hknown _ ih => exact .cons (himp _ hknown) ih

/-- So is every stage of it. -/
theorem take (h : Carries known frames stream) (n : ℕ) :
    ∃ m, Carries known (frames.take m) (stream.take n) := by
  induction h generalizing n with
  | nil => exact ⟨0, by simpa using Carries.nil⟩
  | @cut frame k hknown hk =>
    exact ⟨0, by rw [List.take_take]; exact .cut hknown (by omega)⟩
  | @cons frame frames stream hknown _ ih =>
    rcases Nat.lt_or_ge n frame.total with hn | hn
    · refine ⟨0, ?_⟩
      rw [List.take_append_of_le_length (by rw [Frame.length_cells]; omega)]
      exact .cut hknown hn
    · obtain ⟨m, hm⟩ := ih (n - frame.total)
      have hcells : frame.cells.take n = frame.cells :=
        List.take_of_length_le (by rw [Frame.length_cells]; exact hn)
      refine ⟨m + 1, ?_⟩
      rw [List.take_append, Frame.length_cells, hcells]
      exact .cons hknown hm

end Carries

/-- What the senders leave, as long as every send is whole. -/
theorem wire_carries {sends : List (Send F)} (h : ∀ s ∈ sends, s.whole) :
    Carries (fun frame => frame.Fits ∧ ∃ s ∈ sends, s.frame = frame) (delivered sends)
      (wire sends) := by
  induction sends with
  | nil => exact .nil
  | cons s sends ih =>
    have hih := (ih fun s' hs' => h s' (List.mem_cons_of_mem _ hs')).mono
      fun frame (hframe : frame.Fits ∧ ∃ s' ∈ sends, s'.frame = frame) =>
        show frame.Fits ∧ ∃ s' ∈ s :: sends, s'.frame = frame from
          hframe.imp_right fun hs => hs.imp fun s' hs' => ⟨List.mem_cons_of_mem _ hs'.1, hs'.2⟩
    obtain ⟨⟨m, hm, hwire, hok⟩, hfits⟩ := s.begins
    have hknown : s.frame.Fits → s.frame.Fits ∧ ∃ s' ∈ s :: sends, s'.frame = s.frame :=
      fun hfits => ⟨hfits, s, List.mem_cons_self, rfl⟩
    have hpos : 0 < s.frame.total := by unfold Frame.total; omega
    rw [delivered, wire]
    by_cases hresult : s.sent.result = .ok
    · have hcontinues : s.continues = true := by simp [Send.continues, hresult]
      have hcells : s.sent.wire = s.frame.cells := by
        rw [hwire, hok.1 hresult, ← Frame.length_cells, List.take_length]
      rw [if_pos hresult, hcontinues, hcells]
      refine .cons (hknown (hfits ?_)) hih
      rw [hcells]
      exact List.ne_nil_of_length_pos (by rwa [Frame.length_cells])
    · rw [if_neg hresult, List.nil_append]
      by_cases hcontinues : s.continues = true
      · have hnil := (Send.ok_of_continues (h s List.mem_cons_self) hcontinues).resolve_left hresult
        rwa [hcontinues, hnil]
      · rw [if_neg hcontinues, if_neg hcontinues, List.append_nil]
        by_cases hnil : s.sent.wire = []
        · rw [hnil]
          exact .nil
        · rw [hwire]
          exact .cut (hknown (hfits hnil)) (Nat.lt_of_le_of_ne hm fun h => hresult (hok.2 h))

/-! ## Reading them back -/

namespace Frame

variable {frame : Frame F}

theorem fds_cells (frame : Frame F) : (frame.cells.take 4).flatMap Cell.fds = frame.fds := by
  simp [cells, header, leBytes, ByteStream.message, ByteStream.plain]

theorem bytes_take (frame : Frame F) : (frame.cells.take 4).map Cell.byte = frame.header := by
  rw [List.map_take, cells, ByteStream.bytes_message, List.take_left' frame.length_header]

theorem bytes_drop (frame : Frame F) : (frame.cells.drop 4).map Cell.byte = frame.body := by
  rw [List.map_drop, cells, ByteStream.bytes_message, List.drop_left' frame.length_header]

theorem header_opcode (frame : Frame F) :
    UInt16.ofNat (ofLe (frame.header.take 2)) = frame.opcode := by
  have h : frame.opcode.toNat < 256 ^ 2 := frame.opcode.toNat_lt
  rw [header, List.take_left' (length_leBytes 2 _), ofLe_leBytes h, UInt16.ofNat_toNat]

theorem header_total (hfits : frame.Fits) : ofLe (frame.header.drop 2) = frame.total := by
  have h : frame.total < 256 ^ 2 := by
    have := hfits.total
    omega
  rw [header, List.drop_left' (length_leBytes 2 _), ofLe_leBytes h]

end Frame

def Framer.fdsCap : Framer → Option ℕ
  | .bridge => some maxFdsPerMsg
  | _ => none

theorem Framer.recv_eq (receiver : Framer) (chunks : ℕ → ℕ) (i : ℕ) (stream : List (Cell F)) :
    receiver.recv chunks i stream = recvFrame receiver.fdsCap chunks i stream := by
  cases receiver <;> rfl

theorem Framer.fdsCap_any {frame : Frame F} (receiver : Framer) (hfits : frame.Fits) :
    receiver.fdsCap.any (· < frame.fds.length) = false := by
  have hfds := hfits.fds
  cases receiver <;> simp [Framer.fdsCap, hfds]

/-- A whole frame is read, and the stream is left behind it. -/
theorem Framer.recv_cells (receiver : Framer) (chunks : ℕ → ℕ) (i : ℕ) {frame : Frame F}
    (hfits : frame.Fits) (stream : List (Cell F)) :
    ∃ j, receiver.recv chunks i (frame.cells ++ stream) =
      ⟨some frame.header, .frame frame, j, stream⟩ := by
  have htotal : frame.total = 4 + frame.body.length := rfl
  have htake : (frame.cells ++ stream).take 4 = frame.cells.take 4 :=
    List.take_append_of_le_length (by rw [Frame.length_cells]; omega)
  have hdrop : (frame.cells ++ stream).drop 4 = frame.cells.drop 4 ++ stream :=
    List.drop_append_of_le_length (by rw [Frame.length_cells]; omega)
  have hrest : (frame.cells.drop 4).length = frame.total - 4 := by simp
  obtain ⟨j, hj⟩ := ByteStream.fill_eq chunks i 4 (frame.cells ++ stream)
    (by rw [List.length_append, Frame.length_cells]; omega)
  obtain ⟨k, hk⟩ := ByteStream.fill_eq chunks j (frame.total - 4)
    (frame.cells.drop 4 ++ stream) (by rw [List.length_append, hrest]; omega)
  refine ⟨k, ?_⟩
  rw [receiver.recv_eq, recvFrame, hj, htake, hdrop]
  dsimp only
  rw [frame.fds_cells, receiver.fdsCap_any hfits, frame.bytes_take, Frame.header_total hfits,
    if_neg (by simp), if_neg (by omega), hk, List.take_left' hrest, List.drop_left' hrest,
    frame.header_opcode]
  dsimp only
  rw [frame.bytes_drop]

/-- Of a cut frame at most the header is read, and the receiver waits. -/
theorem Framer.recv_cut (receiver : Framer) (chunks : ℕ → ℕ) (i : ℕ) {frame : Frame F} {n : ℕ}
    (hfits : frame.Fits) (hn : n < frame.total) :
    (receiver.recv chunks i (frame.cells.take n)).outcome = .waiting ∧
      ∀ header ∈ (receiver.recv chunks i (frame.cells.take n)).header, header = frame.header := by
  have htotal : frame.total = 4 + frame.body.length := rfl
  have hlength : (frame.cells.take n).length = n := by
    rw [List.length_take, Frame.length_cells]
    omega
  rw [receiver.recv_eq, recvFrame]
  rcases Nat.lt_or_ge n 4 with hshort | hlong
  · rw [ByteStream.fill_eq_none chunks i (by omega)]
    exact ⟨rfl, by simp⟩
  · obtain ⟨j, hj⟩ := ByteStream.fill_eq chunks i 4 (frame.cells.take n) (by omega)
    rw [hj, List.take_take, Nat.min_eq_left hlong]
    dsimp only
    rw [frame.fds_cells, receiver.fdsCap_any hfits, frame.bytes_take, Frame.header_total hfits,
      if_neg (by simp), if_neg (by omega), ByteStream.fill_eq_none chunks j
        (by rw [List.length_drop]; omega)]
    exact ⟨rfl, by simp⟩

/-- A receiver returns the frames of the stream in order, and reads no other header. -/
theorem readings_carries {known : Frame F → Prop} (hknown : ∀ frame, known frame → frame.Fits)
    (receiver : Framer) (chunks : ℕ → ℕ) (n i : ℕ) {frames : List (Frame F)}
    {stream : List (Cell F)} (h : Carries known frames stream) :
    framesOf (readings receiver chunks n i stream) = frames.take n ∧
      ∀ header ∈ headersOf (readings receiver chunks n i stream),
        ∃ frame, known frame ∧ frame.header = header := by
  induction h generalizing n i with
  | nil =>
    cases n with
    | zero => exact ⟨rfl, by simp [readings, headersOf]⟩
    | succ n =>
      have hfill : ByteStream.fill chunks i 4 ([] : List (Cell F)) = none :=
        ByteStream.fill_eq_none chunks i (Nat.zero_lt_succ 3)
      simp [readings, receiver.recv_eq, recvFrame, hfill, framesOf, headersOf, Reading.frame?]
  | @cut frame k hk hn =>
    cases n with
    | zero => exact ⟨rfl, by simp [readings, headersOf]⟩
    | succ n =>
      obtain ⟨houtcome, hheader⟩ := receiver.recv_cut chunks i (hknown _ hk) hn
      simp only [readings, houtcome, framesOf, headersOf, List.filterMap_cons, Reading.frame?]
      refine ⟨by simp, fun header hmem => ⟨frame, hk, ?_⟩⟩
      rcases hread : (receiver.recv chunks i (frame.cells.take k)).header with _ | read
      · simp [hread] at hmem
      · rw [hread] at hmem
        obtain rfl : header = read := by simpa using hmem
        exact (hheader header hread).symm
  | @cons frame frames stream hk _ ih =>
    cases n with
    | zero => exact ⟨rfl, by simp [readings, headersOf]⟩
    | succ n =>
      obtain ⟨j, hj⟩ := receiver.recv_cells chunks i (hknown _ hk) stream
      obtain ⟨hframes, hheaders⟩ := ih n j
      simp only [framesOf] at hframes
      simp only [headersOf] at hheaders
      simp only [readings, hj, framesOf, headersOf, List.filterMap_cons, Reading.frame?, hframes,
        List.take_succ_cons, List.mem_cons, true_and]
      rintro header (rfl | hmem)
      · exact ⟨frame, hk, rfl⟩
      · exact hheaders header hmem

/-- As long as every send is whole, the frames arrive in order, all of them once all is written,
and at every stage every header read is that of a frame given to a framer. -/
theorem wire_arrives (receiver : Framer) (chunks : ℕ → ℕ) {sends : List (Send F)}
    (hwhole : ∀ s ∈ sends, s.whole) (n m : ℕ) :
    framesOf (readings receiver chunks n 0 (wire sends)) = (delivered sends).take n ∧
      framesOf (readings receiver chunks n 0 ((wire sends).take m)) <+: delivered sends ∧
      ∀ header ∈ headersOf (readings receiver chunks n 0 ((wire sends).take m)),
        ∃ s ∈ sends, s.frame.header = header := by
  have hcarries := wire_carries hwhole
  have hfits : ∀ frame : Frame F, (frame.Fits ∧ ∃ s ∈ sends, s.frame = frame) → frame.Fits :=
    fun _ h => h.1
  obtain ⟨k, hk⟩ := hcarries.take m
  obtain ⟨hframes, hheaders⟩ := readings_carries hfits receiver chunks n 0 hk
  refine ⟨(readings_carries hfits receiver chunks n 0 hcarries).1, ?_, fun header hmem => ?_⟩
  · rw [hframes, List.take_take]
    exact List.take_prefix _ _
  · obtain ⟨_, ⟨-, s, hs, rfl⟩, hheader⟩ := hheaders header hmem
    exact ⟨s, hs, hheader⟩

/-- A run with every kind of end: cut short and gone on with, refused, whole, and cut short for
good. -/
def wholeSends : List (Send ℕ) :=
  [⟨.bridge, ⟨1, [1, 2, 3], [7]⟩, [.failed .eintr, .accepted 2, .accepted 2, .accepted 3]⟩,
    ⟨.uds, ⟨2, [], []⟩, [.failed (.other 11)]⟩,
    ⟨.uds, ⟨2, [4], []⟩, [.accepted 5]⟩,
    ⟨.codec, ⟨3, [5, 6], [8, 9]⟩, [.accepted 5]⟩,
    ⟨.codec, ⟨4, [], []⟩, [.accepted 4]⟩]

theorem wire_arrives_wholeSends :
    delivered wholeSends = [⟨1, [1, 2, 3], [7]⟩, ⟨2, [4], []⟩] ∧
      framesOf (readings .bridge (fun _ => 3) 4 0 (wire wholeSends)) =
        (delivered wholeSends).take 4 ∧
      framesOf (readings .bridge (fun _ => 3) 4 0 ((wire wholeSends).take 9)) <+:
        delivered wholeSends ∧
      ∀ header ∈ headersOf (readings .bridge (fun _ => 3) 4 0 ((wire wholeSends).take 9)),
        ∃ s ∈ wholeSends, s.frame.header = header :=
  ⟨by decide, wire_arrives .bridge (fun _ => 3) (by decide) 4 9⟩

/-- The daemon goes on after a cut frame. -/
def cutShort : List (Send ℕ) :=
  [⟨.uds, ⟨1, [1, 2, 3, 4, 5, 6], []⟩, [.accepted 4]⟩,
    ⟨.uds, ⟨2, [1, 2, 3, 4, 5, 6], []⟩, [.accepted 10]⟩]

theorem not_wire_arrives : ¬ ∀ (receiver : Framer) (chunks : ℕ → ℕ) (sends : List (Send ℕ)) (n : ℕ),
    ∀ header ∈ headersOf (readings receiver chunks n 0 (wire sends)),
      ∃ s ∈ sends, s.frame.header = header := by
  intro h
  have hwire : wire cutShort =
      [1, 0, 10, 0, 2, 0, 10, 0, 1, 2, 3, 4, 5, 6].map fun b => ⟨b, []⟩ := by
    rfl
  -- The second frame is taken for the body of the first, and a part of its body for a header.
  have hheader := h .bridge (fun _ => 4) cutShort 2 [3, 4, 5, 6] (by
    rw [hwire]
    simp [readings, Framer.recv, bridgeRecvFrame, recvFrame, ByteStream.fill, ByteStream.took,
      ofLe, headersOf, maxFdsPerMsg])
  revert hheader
  decide

end Waywallen.Wire
