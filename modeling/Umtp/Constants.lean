import Umtp.Handles.Types

namespace Umtp

-- mtp_constant.h

def MTP_VERSION : Nat := 100

-- sizeof(MTP_PACKET_HEADER)
def MTP_HEADER_SIZE : Nat := 12

def MTP_CONTAINER_TYPE_COMMAND : Nat := 1
def MTP_CONTAINER_TYPE_DATA : Nat := 2
def MTP_CONTAINER_TYPE_RESPONSE : Nat := 3
def MTP_CONTAINER_TYPE_EVENT : Nat := 4

def MTP_TYPE_UINT8 : Nat := 0x0002
def MTP_TYPE_UINT16 : Nat := 0x0004
def MTP_TYPE_UINT32 : Nat := 0x0006
def MTP_TYPE_UINT64 : Nat := 0x0008
def MTP_TYPE_UINT128 : Nat := 0x000A
def MTP_TYPE_STR : Nat := 0xFFFF

def MTP_FORMAT_UNDEFINED : Nat := 0x3000
def MTP_FORMAT_ASSOCIATION : Nat := 0x3001
def MTP_FORMAT_TEXT : Nat := 0x3004
def MTP_FORMAT_HTML : Nat := 0x3005
def MTP_FORMAT_WAV : Nat := 0x3008
def MTP_FORMAT_MP3 : Nat := 0x3009
def MTP_FORMAT_MPEG : Nat := 0x300B
def MTP_FORMAT_EXIF_JPEG : Nat := 0x3801
def MTP_FORMAT_BMP : Nat := 0x3804
def MTP_FORMAT_AIFF : Nat := 0x3007
def MTP_FORMAT_WMA : Nat := 0xB901
def MTP_FORMAT_OGG : Nat := 0xB902
def MTP_FORMAT_AAC : Nat := 0xB903
def MTP_FORMAT_MP4_CONTAINER : Nat := 0xB982
def MTP_FORMAT_3GP_CONTAINER : Nat := 0xB984
def MTP_FORMAT_ABSTRACT_AV_PLAYLIST : Nat := 0xBA05
def MTP_FORMAT_WPL_PLAYLIST : Nat := 0xBA10
def MTP_FORMAT_M3U_PLAYLIST : Nat := 0xBA11
def MTP_FORMAT_PLS_PLAYLIST : Nat := 0xBA14
def MTP_FORMAT_XML_DOCUMENT : Nat := 0xBA82
def MTP_FORMAT_FLAC : Nat := 0xB906
def MTP_FORMAT_AVI : Nat := 0x300A
def MTP_FORMAT_ASF : Nat := 0x300C
def MTP_FORMAT_MS_WORD_DOCUMENT : Nat := 0xBA83
def MTP_FORMAT_MS_EXCEL_SPREADSHEET : Nat := 0xBA85
def MTP_FORMAT_MS_POWERPOINT_PRESENTATION : Nat := 0xBA86

def MTP_PROPERTY_STORAGE_ID : Nat := 0xDC01
def MTP_PROPERTY_OBJECT_FORMAT : Nat := 0xDC02
def MTP_PROPERTY_PROTECTION_STATUS : Nat := 0xDC03
def MTP_PROPERTY_OBJECT_SIZE : Nat := 0xDC04
def MTP_PROPERTY_ASSOCIATION_TYPE : Nat := 0xDC05
def MTP_PROPERTY_ASSOCIATION_DESC : Nat := 0xDC06
def MTP_PROPERTY_OBJECT_FILE_NAME : Nat := 0xDC07
def MTP_PROPERTY_DATE_CREATED : Nat := 0xDC08
def MTP_PROPERTY_DATE_MODIFIED : Nat := 0xDC09
def MTP_PROPERTY_PARENT_OBJECT : Nat := 0xDC0B
def MTP_PROPERTY_HIDDEN : Nat := 0xDC0D
def MTP_PROPERTY_SYSTEM_OBJECT : Nat := 0xDC0E
def MTP_PROPERTY_PERSISTENT_UID : Nat := 0xDC41
def MTP_PROPERTY_NAME : Nat := 0xDC44
def MTP_PROPERTY_DISPLAY_NAME : Nat := 0xDCE0

def MTP_DEVICE_PROPERTY_SYNCHRONIZATION_PARTNER : Nat := 0xD401
def MTP_DEVICE_PROPERTY_BATTERY_LEVEL : Nat := 0x5001
def MTP_DEVICE_PROPERTY_DEVICE_FRIENDLY_NAME : Nat := 0xD402
def MTP_DEVICE_PROPERTY_PERCEIVED_DEVICE_TYPE : Nat := 0xD407

def MTP_ASSOCIATION_TYPE_GENERIC_FOLDER : Nat := 0x0001
def MTP_STORAGE_FIXED_RAM : Nat := 0x0003
def MTP_STORAGE_REMOVABLE_RAM : Nat := 0x0004
def MTP_STORAGE_FILESYSTEM_HIERARCHICAL : Nat := 0x0002
def MTP_STORAGE_READ_WRITE : Nat := 0x0000
def MTP_STORAGE_READ_ONLY_WITHOUT_DELETE : Nat := 0x0001

def MTP_OPERATION_GET_DEVICE_INFO : Nat := 0x1001
def MTP_OPERATION_OPEN_SESSION : Nat := 0x1002
def MTP_OPERATION_CLOSE_SESSION : Nat := 0x1003
def MTP_OPERATION_GET_STORAGE_IDS : Nat := 0x1004
def MTP_OPERATION_GET_STORAGE_INFO : Nat := 0x1005
def MTP_OPERATION_GET_OBJECT_HANDLES : Nat := 0x1007
def MTP_OPERATION_GET_OBJECT_INFO : Nat := 0x1008
def MTP_OPERATION_GET_OBJECT : Nat := 0x1009
def MTP_OPERATION_DELETE_OBJECT : Nat := 0x100B
def MTP_OPERATION_SEND_OBJECT_INFO : Nat := 0x100C
def MTP_OPERATION_SEND_OBJECT : Nat := 0x100D
def MTP_OPERATION_GET_DEVICE_PROP_DESC : Nat := 0x1014
def MTP_OPERATION_GET_DEVICE_PROP_VALUE : Nat := 0x1015
def MTP_OPERATION_SET_DEVICE_PROP_VALUE : Nat := 0x1016
def MTP_OPERATION_GET_PARTIAL_OBJECT : Nat := 0x101B
def MTP_OPERATION_GET_OBJECT_PROPS_SUPPORTED : Nat := 0x9801
def MTP_OPERATION_GET_OBJECT_PROP_DESC : Nat := 0x9802
def MTP_OPERATION_GET_OBJECT_PROP_VALUE : Nat := 0x9803
def MTP_OPERATION_SET_OBJECT_PROP_VALUE : Nat := 0x9804
def MTP_OPERATION_GET_OBJECT_PROP_LIST : Nat := 0x9805
def MTP_OPERATION_GET_OBJECT_REFERENCES : Nat := 0x9810
def MTP_OPERATION_GET_PARTIAL_OBJECT_64 : Nat := 0x95C1
def MTP_OPERATION_SEND_PARTIAL_OBJECT : Nat := 0x95C2
def MTP_OPERATION_TRUNCATE_OBJECT : Nat := 0x95C3
def MTP_OPERATION_BEGIN_EDIT_OBJECT : Nat := 0x95C4
def MTP_OPERATION_END_EDIT_OBJECT : Nat := 0x95C5

def MTP_RESPONSE_OK : Nat := 0x2001
def MTP_RESPONSE_GENERAL_ERROR : Nat := 0x2002
def MTP_RESPONSE_SESSION_NOT_OPEN : Nat := 0x2003
def MTP_RESPONSE_OPERATION_NOT_SUPPORTED : Nat := 0x2005
def MTP_RESPONSE_PARAMETER_NOT_SUPPORTED : Nat := 0x2006
def MTP_RESPONSE_INCOMPLETE_TRANSFER : Nat := 0x2007
def MTP_RESPONSE_INVALID_STORAGE_ID : Nat := 0x2008
def MTP_RESPONSE_INVALID_OBJECT_HANDLE : Nat := 0x2009
def MTP_RESPONSE_DEVICE_PROP_NOT_SUPPORTED : Nat := 0x200A
def MTP_RESPONSE_STORAGE_FULL : Nat := 0x200C
def MTP_RESPONSE_OBJECT_WRITE_PROTECTED : Nat := 0x200D
def MTP_RESPONSE_STORE_READ_ONLY : Nat := 0x200E
def MTP_RESPONSE_ACCESS_DENIED : Nat := 0x200F
def MTP_RESPONSE_PARTIAL_DELETION : Nat := 0x2012
def MTP_RESPONSE_STORE_NOT_AVAILABLE : Nat := 0x2013
def MTP_RESPONSE_DEVICE_BUSY : Nat := 0x2019
def MTP_RESPONSE_INVALID_PARAMETER : Nat := 0x201D
def MTP_RESPONSE_SESSION_ALREADY_OPEN : Nat := 0x201E
def MTP_RESPONSE_INVALID_OBJECT_PROP_CODE : Nat := 0xA801
def MTP_RESPONSE_INVALID_DATASET : Nat := 0xA806
def MTP_RESPONSE_NO_RESPONSE : Nat := 0xFFFF

def MTP_EVENT_OBJECT_ADDED : Nat := 0x4002
def MTP_EVENT_OBJECT_REMOVED : Nat := 0x4003
def MTP_EVENT_STORE_ADDED : Nat := 0x4004
def MTP_EVENT_STORE_REMOVED : Nat := 0x4005
def MTP_EVENT_STORAGE_INFO_CHANGED : Nat := 0x400C
def MTP_EVENT_OBJECT_INFO_CHANGED : Nat := 0x4007
def MTP_EVENT_DEVICE_PROP_CHANGED : Nat := 0x4006
def MTP_EVENT_OBJECT_PROP_CHANGED : Nat := 0xC801

-- mtp_support_def.c

def supportedOp : List Nat :=
  [MTP_OPERATION_GET_DEVICE_INFO,
    MTP_OPERATION_OPEN_SESSION,
    MTP_OPERATION_CLOSE_SESSION,
    MTP_OPERATION_GET_STORAGE_IDS,
    MTP_OPERATION_GET_STORAGE_INFO,
    MTP_OPERATION_GET_OBJECT_HANDLES,
    MTP_OPERATION_GET_OBJECT_INFO,
    MTP_OPERATION_GET_OBJECT,
    MTP_OPERATION_DELETE_OBJECT,
    MTP_OPERATION_SEND_OBJECT_INFO,
    MTP_OPERATION_SEND_OBJECT,
    MTP_OPERATION_GET_DEVICE_PROP_DESC,
    MTP_OPERATION_GET_DEVICE_PROP_VALUE,
    MTP_OPERATION_SET_DEVICE_PROP_VALUE,
    MTP_OPERATION_GET_PARTIAL_OBJECT,
    MTP_OPERATION_GET_OBJECT_PROPS_SUPPORTED,
    MTP_OPERATION_GET_OBJECT_PROP_DESC,
    MTP_OPERATION_GET_OBJECT_PROP_VALUE,
    MTP_OPERATION_SET_OBJECT_PROP_VALUE,
    MTP_OPERATION_GET_OBJECT_PROP_LIST,
    MTP_OPERATION_GET_PARTIAL_OBJECT_64,
    MTP_OPERATION_SEND_PARTIAL_OBJECT,
    MTP_OPERATION_TRUNCATE_OBJECT,
    MTP_OPERATION_BEGIN_EDIT_OBJECT,
    MTP_OPERATION_END_EDIT_OBJECT]

def supportedEvent : List Nat :=
  [MTP_EVENT_OBJECT_ADDED,
    MTP_EVENT_OBJECT_REMOVED,
    MTP_EVENT_STORE_ADDED,
    MTP_EVENT_STORE_REMOVED,
    MTP_EVENT_STORAGE_INFO_CHANGED,
    MTP_EVENT_OBJECT_INFO_CHANGED,
    MTP_EVENT_DEVICE_PROP_CHANGED,
    MTP_EVENT_OBJECT_PROP_CHANGED]

end Umtp
