import PartitionSeL4.Refos.FileServSafe

/-!
# What is in a page that the file server supplies

A page of a window shows the file from the dataspace offset on. The first page of a window that does
not begin on a page boundary has something before the window (`initFrameSkip`), every other page
begins somewhere in it (`dataspaceSkipWinOffset`), and the last bytes of the window or the file may
come before the end of the page.

`page_contents` is the law for all of these at once: the byte at the place of a client's address is
the byte of the file there, if the address is in the window and the file goes that far, and zero
otherwise. What is copied (`nbytes`) ends within the frame and within the file.
-/

namespace PartitionSeL4.Refos

open Lib

namespace FaultNotification

variable {n : FaultNotification}

/-- `nbytes`, for a file of a size and the offset of the window in it. -/
def nbytes (n : FaultNotification) (fileDataSize dataspaceOffset : Nat) : Nat :=
  min (min (pageSize - n.initFrameSkip)
      (sub32 (sub32 fileDataSize n.dataspaceSkipWinOffset) dataspaceOffset))
    (sub32 n.winSize n.dataspaceSkipWinOffset)

/-- The fault lies in the window, and address and size are words. -/
structure InWindow (n : FaultNotification) : Prop where
  base_le : n.winBase ≤ n.faultAddr
  lt_end : n.faultAddr < n.winBase + n.winSize
  size_lt : n.winSize < 2 ^ 32

theorem skip_eq : n.dataspaceSkipWinOffset = pageAlign n.faultAddr - n.winBase := by
  unfold dataspaceSkipWinOffset
  split_ifs <;> omega

/-- The first byte copied is at one place in the frame and in the window. -/
theorem skips_eq :
    pageAlign n.faultAddr + n.initFrameSkip = n.winBase + n.dataspaceSkipWinOffset := by
  unfold initFrameSkip dataspaceSkipWinOffset
  split_ifs <;> omega

theorem InWindow.initFrameSkip_lt (h : n.InWindow) : n.initFrameSkip < pageSize := by
  have hbase := h.base_le
  unfold initFrameSkip pageAlign pageSize
  split_ifs <;> omega

theorem InWindow.skip_lt (h : n.InWindow) : n.dataspaceSkipWinOffset < n.winSize := by
  have hend := h.lt_end
  have hbase := h.base_le
  rw [skip_eq, pageAlign]
  omega

/-- A page that begins within the file: no difference wraps around. -/
theorem InWindow.nbytes_eq (h : n.InWindow) {size offset : Nat} (hsize : size < 2 ^ 32)
    (hle : offset + n.dataspaceSkipWinOffset ≤ size) :
    n.nbytes size offset = min (min (pageSize - n.initFrameSkip)
      (size - n.dataspaceSkipWinOffset - offset)) (n.winSize - n.dataspaceSkipWinOffset) := by
  have hskip := h.skip_lt
  have hwin := h.size_lt
  rw [nbytes, sub32, sub32, sub32, u32_sub (by omega) hwin,
    u32_sub (a := size) (b := n.dataspaceSkipWinOffset) (by omega) hsize,
    u32_sub (by omega) (by omega)]

theorem InWindow.copy_inside (h : n.InWindow) {size offset : Nat} (hsize : size < 2 ^ 32)
    (hle : offset + n.dataspaceSkipWinOffset ≤ size) :
    n.initFrameSkip + n.nbytes size offset ≤ pageSize ∧
      offset + n.dataspaceSkipWinOffset + n.nbytes size offset ≤ size := by
  have hskip := h.initFrameSkip_lt
  rw [h.nbytes_eq hsize hle]
  omega

/-- Where the address of a place in the frame is in the window and the file, the byte is copied. -/
theorem InWindow.frame_byte (h : n.InWindow) {size offset : Nat} (hsize : size < 2 ^ 32)
    (hle : offset + n.dataspaceSkipWinOffset ≤ size) (file : Nat → UInt8) {p : Nat}
    (hp : p < pageSize) :
    blit (fun _ => 0) n.initFrameSkip
        (slice file (offset + n.dataspaceSkipWinOffset) (n.nbytes size offset)) p =
      if n.winBase ≤ pageAlign n.faultAddr + p ∧
          pageAlign n.faultAddr + p < n.winBase + n.winSize ∧
          offset + (pageAlign n.faultAddr + p - n.winBase) < size then
        file (offset + (pageAlign n.faultAddr + p - n.winBase))
      else 0 := by
  have hskips := n.skips_eq
  have hnbytes := h.nbytes_eq hsize hle
  have hskip := h.skip_lt
  by_cases hbefore : p < n.initFrameSkip
  · -- the place is before the window, which begins in this page
    have hzero : n.dataspaceSkipWinOffset = 0 := by
      unfold initFrameSkip at hbefore
      unfold dataspaceSkipWinOffset
      split_ifs at hbefore ⊢
      · rfl
      · omega
    rw [blit_of_outside _ _ _ (Or.inl hbefore), if_neg (by omega)]
  · obtain ⟨j, rfl⟩ : ∃ j, p = n.initFrameSkip + j := ⟨p - n.initFrameSkip, by omega⟩
    have hindex : pageAlign n.faultAddr + (n.initFrameSkip + j) - n.winBase =
        n.dataspaceSkipWinOffset + j := by omega
    rw [hindex]
    by_cases hj : j < n.nbytes size offset
    · rw [blit_of_inside _ _ _ (by rwa [length_slice]), if_pos (by omega), ← Nat.add_assoc]
      have hget := getElem?_slice file (offset + n.dataspaceSkipWinOffset) hj
      rw [List.getElem?_eq_getElem (by rwa [length_slice])] at hget
      exact Option.some.inj hget
    · rw [blit_of_outside _ _ _ (Or.inr (by rw [length_slice]; omega)), if_neg (by omega)]

end FaultNotification

theorem handleFileserverFault_eq {archive : CpioArchive} {s : FileServ} {n : FaultNotification}
    {dwa : DataspaceAssociationInfo} {dspace : FsDataspace}
    (hdwa : s.windowAssocTable n.winID = some dwa)
    (hdspace : s.dspaceGet dwa.dataspaceID = some dspace) (hsize : dspace.fileDataSize < 2 ^ 32)
    (hle : dwa.dataspaceOffset + n.dataspaceSkipWinOffset ≤ dspace.fileDataSize) :
    handleFileserverFault archive s n =
      .ok (.page (blit (fun _ => 0) n.initFrameSkip
        (slice (s.byte archive dspace.fileData) (dwa.dataspaceOffset + n.dataspaceSkipWinOffset)
          (n.nbytes dspace.fileDataSize dwa.dataspaceOffset))), s) := by
  have hskip : sub32 dspace.fileDataSize n.dataspaceSkipWinOffset =
      dspace.fileDataSize - n.dataspaceSkipWinOffset := u32_sub (by omega) hsize
  have hoffset : sub32 dspace.fileDataSize dwa.dataspaceOffset =
      dspace.fileDataSize - dwa.dataspaceOffset := u32_sub (by omega) hsize
  have hboth : sub32 (dspace.fileDataSize - n.dataspaceSkipWinOffset) dwa.dataspaceOffset =
      dspace.fileDataSize - n.dataspaceSkipWinOffset - dwa.dataspaceOffset :=
    u32_sub (by omega) (by omega)
  simp only [handleFileserverFault, hdwa, hdspace, FaultNotification.nbytes]
  rw [hskip, hoffset, hboth, if_neg (by omega)]

/-- **Contents of a page.** For every fault in a window, and every file and offset with which the
page begins within the file: what is copied ends within the frame and within the file, and the frame
holds, at the place of every address of the window that the file goes as far as, the byte of the
file, and zero everywhere else. -/
theorem page_contents (archive : CpioArchive) (s : FileServ) (n : FaultNotification)
    (dwa : DataspaceAssociationInfo) (dspace : FsDataspace)
    (hdwa : s.windowAssocTable n.winID = some dwa)
    (hdspace : s.dspaceGet dwa.dataspaceID = some dspace) (hwindow : n.InWindow)
    (hsize : dspace.fileDataSize < 2 ^ 32)
    (hbegin : dwa.dataspaceOffset + (pageAlign n.faultAddr - n.winBase) ≤ dspace.fileDataSize) :
    let file := s.byte archive dspace.fileData
    let nbytes := n.nbytes dspace.fileDataSize dwa.dataspaceOffset
    let start := dwa.dataspaceOffset + n.dataspaceSkipWinOffset
    ∃ frame, handleFileserverFault archive s n = .ok (.page frame, s) ∧
      frame = blit (fun _ => 0) n.initFrameSkip (slice file start nbytes) ∧
      n.initFrameSkip + nbytes ≤ pageSize ∧ start + nbytes ≤ dspace.fileDataSize ∧
      ∀ p < pageSize,
        frame p =
          if n.winBase ≤ pageAlign n.faultAddr + p ∧
              pageAlign n.faultAddr + p < n.winBase + n.winSize ∧
              dwa.dataspaceOffset + (pageAlign n.faultAddr + p - n.winBase) <
                dspace.fileDataSize then
            file (dwa.dataspaceOffset + (pageAlign n.faultAddr + p - n.winBase))
          else 0 := by
  rw [← n.skip_eq] at hbegin
  obtain ⟨hframe, hfile⟩ := hwindow.copy_inside hsize hbegin
  exact ⟨_, handleFileserverFault_eq hdwa hdspace hsize hbegin, rfl, hframe, hfile,
    fun p hp => hwindow.frame_byte hsize hbegin _ hp⟩

/-- A file of three bytes, mapped from its second byte on. -/
def threeBytes : CpioArchive := [([102], [7, 8, 9])]

/-- In a window that begins in the middle of a page, the byte before the window and the one past the
end of the file are zero. -/
theorem page_contents_unaligned :
    ∃ s, Run (fileStep threeBytes) (fun _ e => e.Words) fileServInit
        [.dataOpen [102] ⟨true, false⟩ .granted, .dataDatamap true firstFd true 1 9 .granted] s ∧
      ∃ frame, handleFileserverFault threeBytes s ⟨9, 0x1000, 0x10900, 0x10800⟩ =
          .ok (.page frame, s) ∧
        frame 0x7FF = 0 ∧ frame 0x800 = 8 ∧ frame 0x801 = 9 ∧ frame 0x802 = 0 := by
  obtain ⟨s, hrun, hdwa, hdspace⟩ : ∃ s, Run (fileStep threeBytes) (fun _ e => e.Words)
      fileServInit
      [.dataOpen [102] ⟨true, false⟩ .granted, .dataDatamap true firstFd true 1 9 .granted] s ∧
      s.windowAssocTable 9 = some ⟨1, 1, .cpio [102]⟩ ∧
        s.dspaceGet 1 = some ⟨1, .cpio [102], 3, false, [102]⟩ := by
    apply Run.exists_of_exec
    decide +kernel
  obtain ⟨frame, hframe, _, _, _, hbyte⟩ := page_contents threeBytes s ⟨9, 0x1000, 0x10900, 0x10800⟩
    _ _ hdwa hdspace ⟨by decide, by decide, by decide⟩ (by decide) (by decide)
  refine ⟨s, hrun, frame, hframe, ?_, ?_, ?_, ?_⟩
  · exact hbyte 0x7FF (by decide)
  · exact hbyte 0x800 (by decide)
  · exact hbyte 0x801 (by decide)
  · exact hbyte 0x802 (by decide)

end PartitionSeL4.Refos
