import Mathlib.Logic.Basic

/-! # Error codes

`boost::system::error_code` carries an error of one of several categories.  "No
error" is `none`, so a function that returns an error code returns an
`Option Error`.
-/
namespace FileHopZ

/-- `filehopz::Error_code`. -/
inductive ErrorCode
  | cryptoContextNotReady
  | cryptoKeyGenerationFailed
  | cryptoPeerKeyFailed
  | cryptoHkdfFailed
  | cryptoRandomFailed
  | cryptoEncryptFailed
  | cryptoDecryptFailed
  | cryptoCiphertextTooShort
  | loopsNotRunning
  | packetTooLarge
  | invalidHandshakeKeySize
  | transportEncryptFailed
  | transportDecryptFailed
  | streamPayloadTooLarge
  | connectionIdleTimeout
  | malformedPacket
  | receiverRefusedTransfer
  | unknownPacketType
  | transferSizeExceeded
  | prematureEndTransfer
  | unsupportedFileType
  | symlinkPayloadTooLarge
  | malformedSymlinkPayload
  | unknownFileId
  | fileOpenFailed
  | fileWriteFailed
  deriving DecidableEq, Repr

/-- The error conditions of the generic category that the file code names or
passes on. -/
inductive Errc
  | noSuchFileOrDirectory
  | invalidArgument
  | fileExists
  | notADirectory
  | isADirectory
  | tooManySymbolicLinkLevels
  deriving DecidableEq, Repr

/-- A `boost::system::error_code` that is set. -/
inductive Error
  | filehopz (code : ErrorCode)
  | generic (code : Errc)
  /-- `boost::asio::error::operation_aborted`. -/
  | operationAborted
  /-- Any other error of the operating system, such as a socket's. -/
  | system (value : Nat)
  deriving DecidableEq, Repr

end FileHopZ
